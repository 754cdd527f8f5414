import LintRun.Payload
import LintRun.Proofs.Decoded
import LintRun.Proofs.Json.RoundTrip
import LintRun.Proofs.Payload.Fields

/-!
# Findings there and back

Findings that are written as a payload are decoded as they were (`decode_ofFindings`). The only
thing that can be in the way is a number with too many digits: it cannot be written. No payload
that is decoded holds one, so what has been decoded can always be written again.
-/
namespace LintRun

open Schema

section Readable

variable {d : Json.Dialect}

theorem Point.readable_toValue (p : Point) (depth : Nat) (room : d.HasRoom (depth + 1))
    (takes : ∀ n ∈ p.numbers, d.Takes n) : Json.Readable d depth p.toValue := by
  refine .table depth _ (fun _ => room) (by simp) ?_
  simp only [List.forall_mem_cons]
  exact ⟨.int _ _ (takes _ (by simp [numbers])), .int _ _ (takes _ (by simp [numbers])),
    .int _ _ (takes _ (by simp [numbers])), by simp⟩

theorem Finding.readable_toValue (f : Finding) (depth : Nat) (room : d.HasRoom (depth + 2))
    (takes : ∀ n ∈ f.numbers, d.Takes n) : Json.Readable d depth f.toValue := by
  refine .table depth _ (fun _ => room.mono (by omega)) (by simp) ?_
  simp only [List.forall_mem_cons]
  have start := f.start.readable_toValue (depth + 1) room fun n member =>
    takes n (List.mem_append_left _ member)
  have stop := f.stop.readable_toValue (depth + 1) room fun n member =>
    takes n (List.mem_append_right _ member)
  exact ⟨.text _ _, .text _ _, start, stop, .text _ _, by simp⟩

theorem Payload.readable_listValue (fs : List Finding) (room : d.HasRoom 3)
    (takes : ∀ f ∈ fs, ∀ n ∈ f.numbers, d.Takes n) : Json.Readable d 0 (listValue fs) := by
  refine .list 0 _ (fun _ => room.mono (by omega)) ?_
  intro v member
  obtain ⟨f, inside, rfl⟩ := List.mem_map.mp member
  exact f.readable_toValue 1 room (takes f inside)

end Readable

section Writable

open Json

/-- Of two places where the same may be found, it is found in one. -/
theorem or_ite_some {α : Type} (a : α) (first second : Bool) :
    (if first = true then some a else none).or (if second = true then some a else none) =
      if (first || second) = true then some a else none := by
  cases first <;> cases second <;> rfl

theorem Point.firstUnwritable?_toValue (p : Point) (depth : Nat) :
    firstUnwritable? (depth + 1) p.toValue =
      if p.numbers.any Excess.isLong then some (.excess .spelling) else none := by
  simp only [toValue, numbers, firstUnwritable?, firstUnwritableOfTable?, Option.or_none,
    Nat.succ_ne_zero, if_false, or_ite_some, List.any_cons, List.any_nil, Bool.or_false]

theorem Finding.firstUnwritable?_toValue (f : Finding) (depth : Nat) :
    firstUnwritable? (depth + 2) f.toValue =
      if f.isLong then some (.excess .spelling) else none := by
  have inner : depth + 2 - 1 = depth + 1 := rfl
  simp only [toValue, isLong, numbers, firstUnwritable?, firstUnwritableOfTable?, inner,
    Nat.succ_ne_zero, if_false, Point.firstUnwritable?_toValue, Option.or_none, Option.none_or,
    or_ite_some, List.any_append]

theorem Finding.firstUnwritableOfList?_map (fs : List Finding) (depth : Nat) :
    firstUnwritableOfList? (depth + 2) (fs.map toValue) =
      if fs.any isLong then some (.excess .spelling) else none := by
  induction fs with
  | nil => rfl
  | cons f fs ih =>
    rw [List.map_cons, firstUnwritableOfList?, ih, f.firstUnwritable?_toValue, or_ite_some,
      List.any_cons]

theorem Payload.firstUnwritable?_listValue (fs : List Finding) :
    firstUnwritable? Depth.written (listValue fs) =
      if fs.any Finding.isLong then some (.excess .spelling) else none := by
  simp only [listValue, firstUnwritable?]
  exact Finding.firstUnwritableOfList?_map fs (Depth.written - 3)

/-- Findings can be written unless one of them has too long a number. -/
theorem Payload.ofFindings_eq (fs : List Finding) :
    ofFindings fs =
      if fs.any Finding.isLong then .error (.excess .spelling)
      else .ok (ofText (print .spaced (listValue fs))) := by
  unfold ofFindings encode?
  rw [firstUnwritable?_listValue]
  cases fs.any Finding.isLong <;> rfl

end Writable

namespace Payload

/-- The findings that a text lists when so much is tolerated, or all defects. -/
def decodeTextIn (d : Json.Dialect) (s : String) : Checked (List Finding) :=
  if Text.isBlankText s then .ok []
  else
    match Json.read d s with
    | .error _ => .defect .jsonInvalid
    | .ok v => listOf Finding.ofValue v

theorem decodeTextIn_payload (s : String) : decodeTextIn .payload s = decodeText s := rfl

/-- A written list of findings is decoded as it was if its depth and its numbers are tolerated. -/
theorem decodeTextIn_print {d : Json.Dialect} {style : Json.Style} (plain : style.IsPlain)
    (fs : List Finding) (room : d.HasRoom 3) (takes : ∀ f ∈ fs, ∀ n ∈ f.numbers, d.Takes n) :
    decodeTextIn d (Json.print style (listValue fs)) = .ok fs := by
  have read : Json.read d (Json.print style (listValue fs)) = .ok (listValue fs) := by
    rw [Json.read, Json.print, String.toList_ofList]
    exact Json.readChars_chars plain _ (readable_listValue fs room takes)
  have some : Text.isBlankText (Json.print style (listValue fs)) = false := by
    rw [Text.isBlankText, Json.print, String.toList_ofList]
    rfl
  rw [decodeTextIn, some, if_neg (by decide), read]
  refine Checked.items_of_forall₂ ?_ 0
  rw [List.forall₂_map_right_iff, List.forall₂_same]
  exact fun f _ => f.ofValue_toValue

/-- No number of a finding that a payload holds is too long to be written. -/
theorem isLong_of_decode (p : Payload) (fs : List Finding) (decoded : p.decode = .ok fs) :
    fs.any Finding.isLong = false := by
  have none (f : Finding) (member : f ∈ fs) : f.isLong = false := by
    unfold decode decodeText at decoded
    split at decoded
    · cases decoded
      cases member
    · split at decoded
      · cases decoded
      · next v read =>
        have short : v.IsShort := fun n inside => by
          have takes := Json.takesAll_of_readChars .payload _ v read n inside
          exact (Decimal.isLong_eq_false_iff_length n).mpr (takes _ rfl)
        cases v with
        | list vs =>
          obtain ⟨v, inside, checked⟩ :=
            Checked.exists_of_items Finding.ofValue 0 vs fs decoded f member
          exact Finding.isLong_of_ofValue v f (short.item v inside) checked
        | _ => cases decoded
  simpa using none

/-- The dialect of payloads without a limit on digits. -/
def anyDigits : Json.Dialect := { Json.Dialect.payload with maxDigits := none }

/-- Findings are decoded from their payload as they were, in order: without the limit on digits
whatever their numbers are, and with it if they can be written at all, which only a number with too
many digits prevents. What a payload was decoded to can be written, and is decoded again. -/
theorem decode_ofFindings (fs : List Finding) :
    decodeTextIn anyDigits (Json.print .spaced (listValue fs)) = .ok fs ∧
      (fs.any Finding.isLong = true ∧ ofFindings fs = .error (.excess .spelling) ∨
        ∃ p, ofFindings fs = .ok p ∧ p.decode = .ok fs) ∧
      ∀ q : Payload, q.decode = .ok fs → ∃ p, ofFindings fs = .ok p ∧ p.decode = .ok fs := by
  have back (short : fs.any Finding.isLong = false) :
      ∃ p, ofFindings fs = .ok p ∧ p.decode = .ok fs := by
    refine ⟨ofText (Json.print .spaced (listValue fs)), by simp [ofFindings_eq, short], ?_⟩
    rw [decode, ← decodeTextIn_payload]
    refine decodeTextIn_print Json.Style.isPlain_spaced fs (by rintro most ⟨⟩; decide) ?_
    rintro f inside n member most ⟨⟩
    have each : f.isLong = false := by simpa using List.any_eq_false.mp short f inside
    have number : Excess.isLong n = false := by simpa using List.any_eq_false.mp each n member
    exact (Decimal.isLong_eq_false_iff_length n).mp number
  refine ⟨?_, ?_, fun q decoded => back (isLong_of_decode q fs decoded)⟩
  · exact decodeTextIn_print Json.Style.isPlain_spaced fs (by rintro most ⟨⟩; decide)
      (by rintro f - n - most ⟨⟩)
  · cases long : fs.any Finding.isLong with
    | true => exact .inl ⟨rfl, by simp [ofFindings_eq, long]⟩
    | false => exact .inr (back long)

/-- A finding with quotes, a backslash, control characters, a character beyond U+FFFF, and a number
that fits into no machine word. -/
def odd : Finding :=
  ⟨"\"a\" \\.ts", "\x07\n\u2028😀", ⟨-1, 0, 2⟩, ⟨0, 10 ^ 30, 0⟩, "é"⟩

/-- The same finding as a linter may have written it. -/
def oddText : String :=
  "[\x7b\"rule_name\": \"\\u00E9\", \"failure\": \"\\u0007\\n\\u2028\\ud83d\\ude00\",
  \"startPosition\": \x7b\"position\": -1, \"line\": false, \"character\": \" 2 \"\x7d,
  \"endPosition\": \x7b\"character\": 0, \"line\": 1000000000000000000000000000000\x7d,
  \"name\": \"\\\"a\\\" \\u005c.ts\"\x7d]"

theorem decode_ofFindings_odd :
    (ofText oddText).decode = .ok [odd] ∧
      ∃ p, ofFindings [odd] = .ok p ∧ p.decode = .ok [odd] := by
  have decoded : (ofText oddText).decode = .ok [odd] := by
    rw [decode, ofText, oddText, decodeText_ofList]
    decide
  exact ⟨decoded, (decode_ofFindings [odd]).2.2 (ofText oddText) decoded⟩

end Payload

end LintRun
