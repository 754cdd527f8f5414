import LintRun.Decimal.Digits

/-!
# How a double is written

The digits come from `LintRun.Decimal.Digits`; a `Layout` says how they are laid out. `plain` is
the form of every float in reports and files, `compact` that of a time limit in a message.
-/
namespace LintRun.Decimal

/-- The decisions of a float format. -/
structure Layout where
  /-- The digits to write: as few as read back, or a fixed number of significant ones. -/
  significant : Option Nat
  /-- Scientific exponents from here on down are written with an exponent. -/
  smallest : Int
  /-- Scientific exponents from here on up are written with an exponent. -/
  largest : Int
  /-- A whole number keeps a fraction of zero. -/
  keepsPoint : Bool

/-- The fewest digits that read back; positional from 1e-4 up to below 1e16. -/
def Layout.plain : Layout := ⟨none, -5, 16, true⟩

/-- Six significant digits without zeros at the end; positional from 1e-4 up to below 1e6. -/
def Layout.compact : Layout := ⟨some 6, -5, 6, false⟩

/-- An exponent: its sign and at least two digits. -/
def exponentText (e : Int) : String :=
  let digits := toString e.natAbs
  (if e < 0 then "e-" else "e+") ++ (if digits.length < 2 then "0" ++ digits else digits)

/-- Digits with a point after the first `whole` of them, padded with zeros on either side. -/
def positional (digits : List Char) (whole : Int) (keepsPoint : Bool) : List Char :=
  if whole ≤ 0 then '0' :: '.' :: (List.replicate (-whole).toNat '0' ++ digits)
  else if digits.length ≤ whole.toNat then
    digits ++ List.replicate (whole.toNat - digits.length) '0'
      ++ (if keepsPoint then ['.', '0'] else [])
  else digits.take whole.toNat ++ '.' :: digits.drop whole.toNat

def Layout.writeScaled (layout : Layout) (s : Scaled) : String :=
  let s := s.stripZeros
  let digits := Nat.toDigits 10 s.digits
  let scientific : Int := s.exponent + digits.length - 1
  if scientific ≤ layout.smallest || scientific ≥ layout.largest then
    let mantissa := match digits with
      | [d] => [d]
      | d :: rest => d :: '.' :: rest
      | [] => []
    String.ofList mantissa ++ exponentText scientific
  else String.ofList (positional digits (scientific + 1) layout.keepsPoint)

def Layout.write (layout : Layout) (x : Float) : String :=
  match parts x with
  | .nan => "nan"
  | .infinite negative => if negative then "-inf" else "inf"
  | .finite negative m q =>
    let sign := if negative then "-" else ""
    if m == 0 then sign ++ (if layout.keepsPoint then "0.0" else "0")
    else
      sign ++ layout.writeScaled (match layout.significant with
        | none => shortest m q
        | some count => rounded count m q)

/-- The fewest digits that read back as the double. -/
def plainText (x : Float) : String := Layout.plain.write x

/-- The double to six significant digits. -/
def compactText (x : Float) : String := Layout.compact.write x

end LintRun.Decimal
