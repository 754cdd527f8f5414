/-!
# Dates and times

Configuration files may hold dates and times. They are kept as written, down to microseconds, and
printed in ISO 8601 form.
-/
namespace LintRun

structure Date where
  year : Nat
  month : Nat
  day : Nat
  deriving DecidableEq, Repr

structure Clock where
  hour : Nat
  minute : Nat
  second : Nat
  microsecond : Nat
  deriving DecidableEq, Repr

/-- A date, a time of day, or both; with both, an offset from UTC in minutes may be given. -/
inductive Moment where
  | date (d : Date)
  | clock (c : Clock)
  | stamp (d : Date) (c : Clock) (offset : Option Int)
  deriving DecidableEq, Repr

/-- A natural in decimal, filled up with zeros on the left. -/
def padded (width n : Nat) : String :=
  let digits := Nat.toDigits 10 n
  String.ofList (List.replicate (width - digits.length) '0' ++ digits)

def Date.text (d : Date) : String :=
  padded 4 d.year ++ "-" ++ padded 2 d.month ++ "-" ++ padded 2 d.day

/-- Hour, minute and second; microseconds only if there are any. -/
def Clock.text (c : Clock) : String :=
  padded 2 c.hour ++ ":" ++ padded 2 c.minute ++ ":" ++ padded 2 c.second
    ++ (if c.microsecond = 0 then "" else "." ++ padded 6 c.microsecond)

/-- An offset from UTC as sign, hours and minutes. -/
def offsetText (minutes : Int) : String :=
  (if minutes < 0 then "-" else "+") ++ padded 2 (minutes.natAbs / 60) ++ ":"
    ++ padded 2 (minutes.natAbs % 60)

/-- The ISO 8601 form. -/
def Moment.text : Moment → String
  | .date d => d.text
  | .clock c => c.text
  | .stamp d c offset => d.text ++ "T" ++ c.text ++ (offset.map offsetText).getD ""

/-- The kind of a moment, as named where it cannot be written. -/
def Moment.kind : Moment → String
  | .date _ => "date"
  | .clock _ => "time"
  | .stamp .. => "datetime"

def isLeapYear (y : Nat) : Bool := y % 4 == 0 && (y % 100 != 0 || y % 400 == 0)

def daysInMonth (year month : Nat) : Nat :=
  match month with
  | 2 => if isLeapYear year then 29 else 28
  | 4 | 6 | 9 | 11 => 30
  | _ => 31

/-- A day that the calendar has, in the years 1 to 9999. -/
def Date.isValid (d : Date) : Bool :=
  1 ≤ d.year && d.year ≤ 9999 && 1 ≤ d.month && d.month ≤ 12 && 1 ≤ d.day
    && d.day ≤ daysInMonth d.year d.month

/-- A time that a clock shows; there are no leap seconds. -/
def Clock.isValid (c : Clock) : Bool := c.hour < 24 && c.minute < 60 && c.second < 60

example : Moment.text (.stamp ⟨1979, 5, 27⟩ ⟨7, 32, 0, 500⟩ (some (-90)))
    = "1979-05-27T07:32:00.000500-01:30" := by decide +kernel

end LintRun
