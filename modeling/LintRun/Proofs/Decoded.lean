import LintRun.Record

/-!
# Decoded findings

What the payload of a record decodes to, apart from the way it is kept: decoding is a function of
the characters of the payload (`decodeText_ofList`), a record decodes if its payload does, and
records together hold the findings of each in order (`foundIn`).
-/
namespace LintRun

namespace Payload

def decodeChars (cs : List Char) : Schema.Checked (List Finding) :=
  if cs.all Text.isBlank then .ok []
  else
    match Json.readChars .payload cs with
    | .error _ => .defect .jsonInvalid
    | .ok v => Schema.listOf Finding.ofValue v

theorem decodeText_eq (s : String) : decodeText s = decodeChars s.toList := rfl

theorem decode_ofText (s : String) : (ofText s).decode = decodeText s := rfl

theorem decodeText_eq_ok {s : String} {fs : List Finding}
    (decoded : (decodeText s).toOption = some fs) : decodeText s = .ok fs := by
  cases result : decodeText s with
  | error details => simp [result, Except.toOption] at decoded
  | ok found =>
    rw [result] at decoded
    exact congrArg Except.ok (Option.some.inj decoded)

theorem decodeText_ofList (cs : List Char) : decodeText (String.ofList cs) = decodeChars cs := by
  rw [decodeText_eq, String.toList_ofList]

end Payload

namespace Record

/-- The findings in the payload of a record, or the defects of the payload. -/
def decoded (r : Record) : Schema.Checked (List Finding) :=
  match r.lint with
  | none => .ok []
  | some p => p.decode

/-- The payload of a record, if there is one, can be decoded. -/
def Decodes (r : Record) : Prop := ∃ fs, r.decoded = .ok fs

/-- The decoded findings of a record; none if it has no payload that can be decoded. -/
def found (r : Record) : List Finding :=
  match r.decoded with
  | .ok fs => fs
  | .error _ => []

/-- The findings of a record whose payload is known to decode. -/
theorem decoded_of_decodeText {r : Record} {output format : String} {fs : List Finding}
    (linted : r.lint = some ⟨output, format⟩)
    (decoded : (Payload.decodeText output).toOption = some fs) : r.decoded = .ok fs := by
  rw [Record.decoded, linted]
  exact Payload.decodeText_eq_ok decoded

theorem found_of_decoded {r : Record} {fs : List Finding} (decoded : r.decoded = .ok fs) :
    r.found = fs := by rw [found, decoded]

section Findings

variable [Wording]

theorem findings_eq_ok_iff {r : Record} {fs : List Finding} :
    r.findings = .ok fs ↔ r.decoded = .ok fs := by
  unfold findings decoded
  cases r.lint with
  | none => simp
  | some p =>
    dsimp only
    cases p.decode <;> simp

theorem Decodes.findings_eq {r : Record} (decodes : r.Decodes) : r.findings = .ok r.found := by
  obtain ⟨fs, decoded⟩ := decodes
  rw [findings_eq_ok_iff, found, decoded]

theorem found_of_findings {r : Record} {fs : List Finding} (decoded : r.findings = .ok fs) :
    r.found = fs := by
  exact found_of_decoded (findings_eq_ok_iff.mp decoded)

end Findings

end Record

def foundIn (records : List Record) : List Finding := records.flatMap Record.found

@[simp] theorem foundIn_append (first second : List Record) :
    foundIn (first ++ second) = foundIn first ++ foundIn second := List.flatMap_append

@[simp] theorem foundIn_singleton (r : Record) : foundIn [r] = r.found := by simp [foundIn]

namespace Record

/-- What a linter prints about two findings. -/
def sampleText : String :=
  "[\x7b\"name\":\"a.ts\",\"failure\":\"early\",
  \"startPosition\":\x7b\"line\":0,\"character\":1\x7d,
  \"endPosition\":\x7b\"line\":0,\"character\":2\x7d,\"ruleName\":\"r\"\x7d,
  \x7b\"name\":\"a.ts\",\"failure\":\"late\",
  \"startPosition\":\x7b\"line\":4,\"character\":0\x7d,
  \"endPosition\":\x7b\"line\":4,\"character\":3\x7d,\"ruleName\":\"r\"\x7d]"

def sample : Record := ⟨⟨.root, ["a.ts"]⟩, "a.ts", .absent, some ⟨sampleText, "json"⟩⟩

def sampleFindings : List Finding :=
  [⟨"a.ts", "early", ⟨0, 0, 1⟩, ⟨0, 0, 2⟩, "r"⟩, ⟨"a.ts", "late", ⟨0, 4, 0⟩, ⟨0, 4, 3⟩, "r"⟩]

theorem sampleText_decode : (Payload.decodeText sampleText).toOption = some sampleFindings := by
  rw [sampleText, Payload.decodeText_ofList]
  decide

theorem sample_decoded : sample.decoded = .ok sampleFindings :=
  decoded_of_decodeText rfl sampleText_decode

theorem sample_decodes : sample.Decodes := ⟨_, sample_decoded⟩

@[simp] theorem sample_found : sample.found = sampleFindings := found_of_decoded sample_decoded

theorem sample_findings [Wording] : sample.findings = .ok sampleFindings :=
  findings_eq_ok_iff.mpr sample_decoded

end Record

end LintRun
