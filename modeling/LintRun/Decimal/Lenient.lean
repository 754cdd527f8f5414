import LintRun.Decimal.Reading
import LintRun.Excess
import LintRun.Text.Blank

/-!
# Numbers in texts

Where a number is wanted, a text that spells one will do. White space around it does not count, and
single low lines may part its digits. An integer may have zeros in front, parted by any number of
low lines, and a fraction of zeros at its end. The zeros in front are taken off before anything
else is looked at, so that a minus sign may stand behind them, too.
-/
namespace LintRun.Decimal

/-- Whether low lines stand alone and not at the end; `low` tells whether one has just been read,
or nothing at all. -/
def lowLinesApart (low : Bool) : List Char → Bool
  | [] => !low
  | c :: rest => if c = '_' then !low && lowLinesApart true rest else lowLinesApart false rest

/-- The characters without their low lines, none of which may stand at an end or beside another. -/
def withoutLowLines? (cs : List Char) : Option (List Char) :=
  if lowLinesApart true cs then some (cs.filter (· != '_')) else none

/-- The double that characters spell: a numeral or a word. -/
def plainFloat? (cs : List Char) : Option Float :=
  (namedFloat? cs).or ((numeral? cs).map Numeral.toFloat)

/-- The double that a text spells. Low lines and white space around it are not put up with
together. -/
def lenientFloat? (cs : List Char) : Option Float :=
  (plainFloat? (Text.trimChars Text.isSpace cs)).or ((withoutLowLines? cs).bind plainFloat?)

/-- What follows zeros and low lines; `last` is the one read last, which is kept in front of a
point and at the end. -/
def skipZeros (last : Char) : List Char → Option (List Char)
  | [] => some [last]
  | c :: rest =>
    if c = '0' || c = '_' then skipZeros c rest
    else if c = '.' then some (last :: c :: rest)
    else if isDigit c || c = '-' then some (c :: rest)
    else none

/-- Characters that start with a digit, without the zeros in front. -/
def withoutZeros? : List Char → Option (List Char)
  | [] => none
  | c :: rest =>
    if c = '0' then skipZeros c rest else if isDigit c then some (c :: rest) else none

/-- Characters without the fraction at their end, which may have zeros only, but at least one. -/
def withoutFraction? (cs : List Char) : Option (List Char) :=
  let whole := cs.takeWhile (· != '.')
  let fraction := cs.drop whole.length
  if fraction.isEmpty || (2 ≤ fraction.length && fraction.tail.all (· == '0')) then some whole
  else none

/-- The digits of the plain integer that starts here, behind a minus sign or none. They do not
start with a zero. -/
def plainDigits (cs : List Char) : List Char :=
  let digits := (if cs.head? = some '-' then cs.tail else cs).takeWhile isDigit
  if digits.head? = some '0' then [] else digits

/-- The integer that characters spell plainly: a minus sign or none, and a zero or digits that do
not start with one. Only digits count towards how many an integer may have. -/
def plainInt? (cs : List Char) : Option Int :=
  let digits := plainDigits cs
  let n : Int := natOfDigits digits
  if cs = ['0'] || cs = ['-', '0'] then some 0
  else if digits.isEmpty || Excess.digitLimit < digits.length then none
  else if cs = digits then some n
  else if cs = '-' :: digits then some (-n)
  else none

def plainSpelling? (cs : List Char) : Option (List Char) := do
  let (negative, body) := takeSign (Text.trimChars Text.isSpace cs)
  let body ← withoutZeros? body
  let body ← withoutFraction? body
  let body ← withoutLowLines? body
  return if negative then '-' :: body else body

/-- What a text says where an integer is wanted. -/
inductive IntText where
  | value (n : Int)
  /-- A plain integer with too many digits. -/
  | tooLong
  | unreadable
  deriving DecidableEq, Repr

def lenientInt (cs : List Char) : IntText :=
  if Excess.digitLimit < (plainDigits cs).length then .tooLong
  else
    match (plainSpelling? cs).bind plainInt? with
    | some n => .value n
    | none => .unreadable

example : lenientInt " +1_000.0 ".toList = .value 1000 := by decide +kernel
example : lenientInt "0__7".toList = .value 7 := by decide +kernel
example : lenientInt "0-_1".toList = .value (-1) := by decide +kernel
example : lenientInt "-_1".toList = .unreadable := by decide +kernel
example : lenientInt "1_.0".toList = .unreadable := by decide +kernel

end LintRun.Decimal
