import LintRun.Error
import LintRun.Payload

/-!
# Records

A record is one file on its way through a run: where it is, what it is called relative to the
project, what it holds, and the payload of the linter once it has been linted.
-/
namespace LintRun

inductive Contents where
  | absent
  | bytes (b : ByteArray)
  /-- A stream that could still be read. -/
  | stream
  /-- Something that is neither bytes nor a stream. -/
  | other

/-- A file on its way through a run. -/
structure Record where
  path : Path
  relative : String
  contents : Contents
  lint : Option Payload

namespace Record

def isNull (r : Record) : Bool := r.contents matches .absent

def isStream (r : Record) : Bool := r.contents matches .stream

/-- The text of a record, with U+FFFD for what is not UTF-8. -/
def text (r : Record) : Except Error String :=
  match r.contents with
  | .bytes b => .ok (Text.Utf8.decodeReplacing b)
  | _ => .error (.outside .type s!"{r.path.toString} has no buffered contents")

/-- The findings in the payload of a record; a record without one has none. -/
def findings [Wording] (r : Record) : Except Error (List Finding) :=
  match r.lint with
  | none => .ok []
  | some p =>
    match p.decode with
    | .ok fs => .ok fs
    | .error ds => .error (.engine (.badPayload p.format (Wording.payload p.output) ds))

end Record

end LintRun
