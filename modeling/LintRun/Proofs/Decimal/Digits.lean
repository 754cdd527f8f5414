import Mathlib.Data.List.Induction
import Mathlib.Data.Nat.Digits.Defs
import LintRun.Decimal.Lenient

/-!
# Digits and the numbers they spell

The digits of a number spell it, and so many digits spell no number of more digits. Whether an
integer is long is a matter of how many digits it is written with (`isLong_eq_false_iff_length`).
The integers that texts spell leniently are never long (`lenientInt_isLong`).
-/
namespace LintRun.Decimal

theorem ne_of_isDigit (c other : Char) (digit : isDigit c = true) (none : isDigit other = false) :
    c ≠ other := by
  rintro rfl
  rw [digit] at none
  cases none

theorem digitValue_lt (c : Char) (digit : isDigit c = true) : digitValue c < 10 := by
  simp only [isDigit, Bool.and_eq_true, decide_eq_true_eq] at digit
  have above : c.toNat ≤ '9'.toNat := digit.2
  have nine : '9'.toNat = 57 := rfl
  have zero : '0'.toNat = 48 := rfl
  unfold digitValue
  omega

/-- So many digits spell a number below that power of ten. -/
theorem natOfDigits_lt (cs : List Char) (digits : ∀ c ∈ cs, isDigit c = true) :
    natOfDigits cs < 10 ^ cs.length := by
  induction cs using List.reverseRecOn with
  | nil => simp [natOfDigits]
  | append_singleton cs c ih =>
    have front := ih fun x member => digits x (by simp [member])
    have last := digitValue_lt c (digits c (by simp))
    have split : natOfDigits (cs ++ [c]) = natOfDigits cs * 10 + digitValue c := by
      simp [natOfDigits]
    rw [split, List.length_append, List.length_singleton, Nat.pow_succ]
    omega

section Digits

variable (n : Nat)

theorem isDigit_of_mem_toDigits : ∀ c ∈ Nat.toDigits 10 n, isDigit c = true :=
  fun _ member => Nat.isDigit_of_mem_toDigits (by decide) (by decide) member

theorem natOfDigits_toDigits : natOfDigits (Nat.toDigits 10 n) = n := by
  have spelled : Nat.ofDigitChars 10 (Nat.toDigits 10 n) 0 = n := Nat.ofDigitChars_ten_toDigits
  rw [Nat.ofDigitChars_eq_foldl] at spelled
  simpa only [natOfDigits, digitValue, Nat.mul_comm] using spelled

/-- Only zero starts with a zero. -/
theorem head?_toDigits (positive : 0 < n) : (Nat.toDigits 10 n).head? ≠ some '0' := by
  induction n using Nat.strongRecOn with
  | ind n ih =>
    by_cases small : n < 10
    · have all : ∀ d < 10, 0 < d → [d.digitChar].head? ≠ some '0' := by decide
      rw [Nat.toDigits_of_lt_base small]
      exact all n small positive
    · have front := ih (n / 10) (by omega) (by omega)
      rw [Nat.toDigits_of_base_le (by decide) (by omega)]
      cases digits : Nat.toDigits 10 (n / 10) with
      | nil => exact absurd digits Nat.toDigits_ne_nil
      | cons c others =>
        rw [digits] at front
        exact front

/-- A number below a power of ten is written with at most so many digits. -/
theorem length_toDigits_le (most : Nat) (some : 0 < most) (small : n < 10 ^ most) :
    (Nat.toDigits 10 n).length ≤ most :=
  (Nat.length_toDigits_le_iff (by decide) some).mpr small

end Digits

theorem isLong_eq_false_iff_lt (n : Int) :
    Excess.isLong n = false ↔ n.natAbs < 10 ^ Excess.digitLimit := by
  rw [Excess.isLong, Nat.pow_eq, decide_eq_false_iff_not, Nat.not_le]

/-- An integer is long if it is written with more digits than are allowed. -/
theorem isLong_eq_false_iff_length (n : Int) :
    Excess.isLong n = false ↔ (Nat.toDigits 10 n.natAbs).length ≤ Excess.digitLimit := by
  rw [isLong_eq_false_iff_lt, Nat.length_toDigits_le_iff (by decide) (by decide)]

/-- An integer that fits into a machine word, and far more, is not long. -/
theorem isLong_eq_false_of_lt (n : Int) (below : n.natAbs < 10 ^ 20) :
    Excess.isLong n = false :=
  (isLong_eq_false_iff_lt n).mpr
    (Nat.lt_of_lt_of_le below (Nat.pow_le_pow_right (by decide) (by decide)))

/-- A one with so many zeros is long. -/
theorem isLong_pow {zeros : Nat} (many : Excess.digitLimit ≤ zeros) :
    Excess.isLong (10 ^ zeros) = true := by
  rw [← Bool.not_eq_false, isLong_eq_false_iff_lt, Int.natAbs_pow, Nat.not_lt]
  exact Nat.pow_le_pow_right (by decide) many

/-- An integer whose digits are few is not long. -/
theorem isLong_eq_false_of_digits (n : Int) (digits : List Char)
    (all : ∀ c ∈ digits, isDigit c = true) (few : digits.length ≤ Excess.digitLimit)
    (spelled : n.natAbs = natOfDigits digits) : Excess.isLong n = false := by
  rw [isLong_eq_false_iff_lt, spelled]
  exact Nat.lt_of_lt_of_le (natOfDigits_lt digits all) (Nat.pow_le_pow_right (by decide) few)

theorem isDigit_of_mem_plainDigits (cs : List Char) : ∀ c ∈ plainDigits cs, isDigit c = true := by
  intro c member
  simp only [plainDigits] at member
  generalize (if cs.head? = some '-' then cs.tail else cs) = body at member
  split at member
  · cases member
  · exact List.all_eq_true.mp List.all_takeWhile c member

theorem plainInt?_isLong (cs : List Char) (n : Int) (plain : plainInt? cs = some n) :
    Excess.isLong n = false := by
  have digits := isDigit_of_mem_plainDigits cs
  unfold plainInt? at plain
  dsimp only at plain
  split at plain
  · cases plain
    exact isLong_eq_false_of_lt 0 (by decide)
  · split at plain
    · cases plain
    · next few =>
      simp only [Bool.or_eq_true, decide_eq_true_eq, not_or, Nat.not_lt] at few
      split at plain
      · cases plain
        exact isLong_eq_false_of_digits _ _ digits few.2 (by simp)
      · split at plain
        · cases plain
          exact isLong_eq_false_of_digits _ _ digits few.2 (by simp)
        · cases plain

/-- An integer that a text spells leniently is not long. -/
theorem lenientInt_isLong (cs : List Char) (n : Int) (spelled : lenientInt cs = .value n) :
    Excess.isLong n = false := by
  unfold lenientInt at spelled
  split at spelled
  · cases spelled
  · split at spelled
    · next m found =>
      cases spelled
      obtain ⟨plain, _, read⟩ := Option.bind_eq_some_iff.mp found
      exact plainInt?_isLong plain _ read
    · cases spelled

end LintRun.Decimal
