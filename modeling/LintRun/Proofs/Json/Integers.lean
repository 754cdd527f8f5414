import LintRun.Json.Printer
import LintRun.Proofs.Json.Numbers

/-!
# Integers there and back

An integer is written with a sign, if it is negative, and its decimal digits. That is a number that
spells it (`Number.ofInt`), with few enough digits for a dialect that takes it (`Dialect.Takes`).
-/
namespace LintRun.Json

open LintRun.Decimal

/-- An integer has no more digits than a dialect allows. -/
def Dialect.Takes (d : Dialect) (n : Int) : Prop :=
  ∀ most, d.maxDigits = some most → (Nat.toDigits 10 n.natAbs).length ≤ most

/-- An integer is written as its sign and its digits. -/
theorem toList_toString (n : Int) :
    (toString n).toList = (if n < 0 then ['-'] else []) ++ Nat.toDigits 10 n.natAbs := by
  rw [Int.toString_eq_repr, Int.repr_eq_if]
  by_cases negative : n < 0
  · rw [if_neg (by omega), if_pos negative, String.toList_append, Nat.toList_repr]
    have size : (-n).toNat = n.natAbs := by omega
    rw [size]
    rfl
  · rw [if_pos (by omega), if_neg negative, Nat.toList_repr]
    have size : n.toNat = n.natAbs := by omega
    rw [size]
    rfl

theorem toDigits_eq_zero_of_head? (n : Nat) (head : (Nat.toDigits 10 n).head? = some '0') :
    Nat.toDigits 10 n = ['0'] := by
  by_cases positive : 0 < n
  · exact absurd head (head?_toDigits n positive)
  · obtain rfl : n = 0 := by omega
    rfl

/-- The number that an integer is written as. -/
def Number.ofInt (n : Int) : Number where
  negative := n < 0
  whole := Nat.toDigits 10 n.natAbs
  fraction := []
  exponent := none
  nonempty := Nat.toDigits_ne_nil
  all := isDigit_of_mem_toDigits n.natAbs
  zero := toDigits_eq_zero_of_head? n.natAbs
  fractionAll := by simp

namespace Number

theorem chars_ofInt (n : Int) : (ofInt n).chars = (toString n).toList := by
  rw [toList_toString]
  simp [chars, ofInt, point, power]

theorem value_ofInt (n : Int) : (ofInt n).value = .int n := by
  have whole : natOfDigits (ofInt n).whole = n.natAbs := natOfDigits_toDigits n.natAbs
  have plain : (ofInt n).isFloat = false := rfl
  rw [value, plain, whole]
  by_cases negative : n < 0
  · simp only [ofInt, negative, decide_true, if_true, Bool.false_eq_true, if_false]
    congr 1
    omega
  · simp only [ofInt, negative, decide_false, Bool.false_eq_true, if_false]
    congr 1
    omega

theorem findsLong_ofInt (d : Dialect) (n : Int) (takes : d.Takes n) :
    d.findsLong (ofInt n).isFloat (ofInt n).whole.length = false := by
  unfold Dialect.findsLong
  cases most : d.maxDigits with
  | none => simp
  | some most' =>
    have few : decide (most' < (ofInt n).whole.length) = false :=
      decide_eq_false (Nat.not_lt.mpr (takes most' most))
    simp [few]

end Number

end LintRun.Json
