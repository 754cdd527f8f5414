import LintRun.Decimal.Binary64

/-!
# Decimal digits of a double

`shortest` finds the fewest digits that read back as the double, and of those the nearest to it.
`rounded` finds the digits of the double at a given precision, a tie to the even digit. A result
`⟨d, e⟩` stands for `d · 10 ^ e`.
-/
namespace LintRun.Decimal

/-- The number `digits · 10 ^ exponent`. -/
structure Scaled where
  digits : Nat
  exponent : Int
  deriving DecidableEq, Repr

/-- `num / den / 10 ^ e` as a quotient of naturals. -/
def scaleDecimal (num den : Nat) (e : Int) : Nat × Nat :=
  if e < 0 then (num * Nat.pow 10 (-e).toNat, den) else (num, den * Nat.pow 10 e.toNat)

def digitCount (n : Nat) : Nat := (Nat.toDigits 10 n).length

/-- The exponent `e` with `10 ^ e ≤ num / den < 10 ^ (e + 1)`, for a positive quotient. -/
def decimalExponent (num den : Nat) : Int :=
  let guess : Int := (digitCount num : Int) - digitCount den
  let (n, d) := scaleDecimal num den guess
  if n < d then guess - 1 else guess

/-- A magnitude `m · 2 ^ q` as a quotient of naturals. -/
def quotient (m : Nat) (q : Int) : Nat × Nat := scaleBinary m 1 (-q)

/-- The reals that round to `m · 2 ^ q`, in quarters of `2 ^ q`: they lie between `4m - below` and
`4m + 2`, ends included iff `m` is even. Below a power of two the gap is half as wide. -/
def gapBelow (m : Nat) (q : Int) : Nat := if m == Nat.pow 2 52 && q > -1074 then 1 else 2

/-- Whether `d · 10 ^ e` rounds to `m · 2 ^ q`. -/
def readsBack (m : Nat) (q : Int) (d : Nat) (e : Int) : Bool :=
  let (dn, dd) := if e < 0 then (d, Nat.pow 10 (-e).toNat) else (d * Nat.pow 10 e.toNat, 1)
  let (un, ud) := quotient 1 (q - 2)
  -- compare `dn / dd` with the two ends, each a multiple of `un / ud`
  let point := dn * ud
  let low := (4 * m - gapBelow m q) * un * dd
  let high := (4 * m + 2) * un * dd
  if m % 2 == 0 then low ≤ point && point ≤ high else low < point && point < high

/-- The candidate with `count` digits, if one of the two neighbours on that decimal grid reads
back; of two the nearer, of two equally near the even one. -/
def candidate? (m : Nat) (q : Int) (count : Nat) : Option Scaled :=
  let (n, d) := quotient m q
  let e := decimalExponent n d - ((count : Int) - 1)
  let (n, d) := scaleDecimal n d e
  let below := n / d
  let lowFits := readsBack m q below e
  let highFits := readsBack m q (below + 1) e
  if lowFits && highFits then some ⟨roundDiv n d, e⟩
  else if lowFits then some ⟨below, e⟩
  else if highFits then some ⟨below + 1, e⟩
  else none

/-- The fewest digits that read back as the positive double `m · 2 ^ q`; seventeen always do. -/
def shortest (m : Nat) (q : Int) : Scaled :=
  ((List.range 17).findSome? fun i => candidate? m q (i + 1)).getD ⟨m, q⟩

/-- The positive double `m · 2 ^ q` to `count` significant digits. -/
def rounded (count m : Nat) (q : Int) : Scaled :=
  let (n, d) := quotient m q
  let e := decimalExponent n d - ((count : Int) - 1)
  let (n, d) := scaleDecimal n d e
  ⟨roundDiv n d, e⟩

/-- The same number without zeros at the end of its digits. -/
def Scaled.stripZeros (s : Scaled) : Scaled :=
  let text := Nat.toDigits 10 s.digits
  let zeros := (text.reverse.takeWhile (· == '0')).length
  if s.digits == 0 then ⟨0, 0⟩ else ⟨s.digits / Nat.pow 10 zeros, s.exponent + zeros⟩

end LintRun.Decimal
