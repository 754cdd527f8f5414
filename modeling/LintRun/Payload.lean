import LintRun.Depth
import LintRun.Finding
import LintRun.Json.Reader
import LintRun.Json.Printer

/-!
# Linter payloads

A payload is the raw text that a linter gives back for a file, with the name of its format. It is
kept as it is and decoded only when its findings are asked for: a JSON list of findings, or no
text at all.
-/
namespace LintRun

open Schema

/-- The raw answer of a linter for one file. -/
structure Payload where
  output : String
  format : String
  deriving DecidableEq, Repr

namespace Payload

/-- The name of the format that payloads have unless the linter says otherwise. -/
def defaultFormat : String := "json"

def ofText (output : String) : Payload := ⟨output, defaultFormat⟩

def listValue (fs : List Finding) : Value := .list (fs.map Finding.toValue)

/-- The payload of a linter that found `fs`, if they can be written. -/
def ofFindings (fs : List Finding) : Except Json.Unwritable Payload :=
  (Json.encode? .spaced Depth.written (listValue fs)).map ofText

/-- The findings that a text lists, or all defects. A text that is not JSON is one defect. -/
def decodeText (s : String) : Checked (List Finding) :=
  if Text.isBlankText s then .ok []
  else
    match Json.read .payload s with
    | .error _ => .defect .jsonInvalid
    | .ok v => listOf Finding.ofValue v

def decode (p : Payload) : Checked (List Finding) := decodeText p.output

end Payload

end LintRun
