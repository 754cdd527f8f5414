/-!
# Excess

A text may be well formed and still ask for more than is read: an integer with too many digits, or
values nested too deep. This is no mistake in the text, and is told apart from mistakes. An integer
may be read in one base and have too many digits to be written in another.
-/
namespace LintRun

/-- What there is too much of. -/
inductive Excess where
  /-- The digits of an integer that is read. -/
  | digits (count : Nat)
  /-- The digits of an integer that is written. -/
  | spelling
  /-- The depth at which a JSON list stands. -/
  | lists
  /-- The depth at which a JSON table stands. -/
  | tables
  /-- The depth at which a TOML value stands. -/
  | values
  /-- The depth at which a value is written as JSON. -/
  | encoding
  /-- The depth at which a value is quoted. -/
  | quoting
  deriving DecidableEq, Repr

namespace Excess

def digitLimit : Nat := 4300

/-- Whether an integer has more digits than may be written. -/
def isLong (n : Int) : Bool := Nat.pow 10 digitLimit ≤ n.natAbs

def message : Excess → String
  | .digits count =>
    s!"Exceeds the limit ({digitLimit} digits) for integer string conversion: value has {count} "
      ++ "digits; use sys.set_int_max_str_digits() to increase the limit"
  | .spelling =>
    s!"Exceeds the limit ({digitLimit} digits) for integer string conversion; "
      ++ "use sys.set_int_max_str_digits() to increase the limit"
  | .lists => "maximum recursion depth exceeded while decoding a JSON array from a unicode string"
  | .tables =>
    "maximum recursion depth exceeded while decoding a JSON object from a unicode string"
  | .values => "maximum recursion depth exceeded"
  | .encoding => "maximum recursion depth exceeded while encoding a JSON object"
  | .quoting => "maximum recursion depth exceeded while getting the repr of an object"

end Excess

end LintRun
