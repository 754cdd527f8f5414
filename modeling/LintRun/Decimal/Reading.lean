import LintRun.Decimal.Binary64

/-!
# Reading decimal numbers

A decimal number is a sign, digits, and an exponent of ten; `Decimal.toFloat` rounds it to the
nearest double. Exponents far outside the range of doubles are settled by size alone.
-/
namespace LintRun.Decimal

/-- An ASCII digit. -/
def isDigit (c : Char) : Bool := '0' ≤ c && c ≤ '9'

def digitValue (c : Char) : Nat := c.toNat - '0'.toNat

def natOfDigits (cs : List Char) : Nat := cs.foldl (fun n c => n * 10 + digitValue c) 0

/-- The double nearest to `± digits · 10 ^ exponent`. -/
def toFloat (negative : Bool) (digits : Nat) (exponent : Int) : Float :=
  let size : Int := (Nat.toDigits 10 digits).length + exponent
  if digits == 0 || size < -330 then nearest negative 0 1
  else if size > 400 then infinity negative
  else if exponent < 0 then nearest negative digits (Nat.pow 10 (-exponent).toNat)
  else nearest negative (digits * Nat.pow 10 exponent.toNat) 1

/-- Digits before a point, digits after it, and an exponent. -/
structure Numeral where
  negative : Bool
  whole : List Char
  fraction : List Char
  exponent : Int

def Numeral.toFloat (n : Numeral) : Float :=
  Decimal.toFloat n.negative (natOfDigits (n.whole ++ n.fraction)) (n.exponent - n.fraction.length)

/-- An optional sign in front of characters: whether it is a minus, and what follows it. -/
def takeSign : List Char → Bool × List Char
  | '-' :: rest => (true, rest)
  | '+' :: rest => (false, rest)
  | cs => (false, cs)

/-- The exponent of a numeral, with its letter; nothing stands for zero. -/
def exponent? : List Char → Option Int
  | [] => some 0
  | e :: cs =>
    let (negative, digits) := takeSign cs
    if (e = 'e' || e = 'E') && !digits.isEmpty && digits.all isDigit then
      let size : Int := natOfDigits digits
      some (if negative then -size else size)
    else none

/-- A numeral: digits, a point and digits, and an exponent, each part optional, but not without a
digit before the exponent. -/
def numeral? (cs : List Char) : Option Numeral := do
  let (negative, body) := takeSign cs
  let whole := body.takeWhile isDigit
  let rest := body.drop whole.length
  let fraction := if rest.head? = some '.' then rest.tail.takeWhile isDigit else []
  let rest := if rest.head? = some '.' then rest.tail.drop fraction.length else rest
  let exponent ← exponent? rest
  if whole.isEmpty && fraction.isEmpty then none
  else some ⟨negative, whole, fraction, exponent⟩

/-- A double that is written as a word, in any case. -/
def namedFloat? (cs : List Char) : Option Float :=
  let (negative, body) := takeSign cs
  let word := String.ofList (body.map Char.toLower)
  if word = "inf" || word = "infinity" then some (infinity negative)
  else if word = "nan" then some notANumber
  else none

end LintRun.Decimal
