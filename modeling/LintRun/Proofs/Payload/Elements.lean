import LintRun.Proofs.Json.Refusals
import LintRun.Proofs.Payload.Spellings

/-!
# Lists element by element

A payload that lists elements is decoded as the payloads with one of the elements each are, one
after the other: all findings in order, or all defects, each under the index of its element
(`decode_elementwise`). Only an element that is not read at all, for a number with too many digits
or a surrogate without a partner, takes the defects of the others away.
-/
namespace LintRun

namespace Schema

/-- The defects of a value that has not been let through. -/
def Checked.details {α : Type} : Checked α → List Detail
  | .ok _ => []
  | .error ds => ds

/-- The same defect in the item of another index. -/
def Detail.movedTo (i : Nat) (d : Detail) : Detail :=
  match d.way with
  | .index 0 :: rest => ⟨d.defect, .index i :: rest⟩
  | _ => d

namespace Checked

variable {α : Type} (check : Value → Checked α)

theorem items_single (v : Value) :
    items check 0 [v] = (under (.index 0) (check v)).map fun a => [a] := by
  cases checked : check v <;> simp [items, checked, under, both, Except.map]

theorem isOk_items (vs : List Value) (i : Nat) :
    (items check i vs).isOk = true ↔ ∀ v ∈ vs, (items check 0 [v]).isOk = true := by
  induction vs generalizing i with
  | nil => simp [items, isOk_ok]
  | cons v rest ih =>
    have both : (items check i (v :: rest)).isOk =
        ((items check 0 [v]).isOk && (items check (i + 1) rest).isOk) := by
      rw [items_single, items]
      cases check v <;> cases items check (i + 1) rest <;> rfl
    rw [both, Bool.and_eq_true, ih, List.forall_mem_cons]

/-- Items that are let through one by one are let through together. -/
theorem items_flatten {vs : List Value} {results : List (List α)}
    (each : List.Forall₂ (fun v as => items check 0 [v] = .ok as) vs results) (i : Nat) :
    items check i vs = .ok results.flatten ∧ results.flatten.length = vs.length := by
  induction each generalizing i with
  | nil => exact ⟨rfl, rfl⟩
  | @cons v as rest results first _ ih =>
    obtain ⟨a, others, checked, none, rfl⟩ := (items_cons_eq_ok check 0 v [] as).mp first
    obtain rfl := Except.ok.inj none
    obtain ⟨together, length⟩ := ih (i + 1)
    exact ⟨(items_cons_eq_ok _ _ _ _ _).mpr ⟨a, _, checked, together, rfl⟩, by simp [length]⟩

/-- The defects of items are those of each item by itself, under its own index. -/
theorem details_items (vs : List Value) (i : Nat) :
    (items check i vs).details =
      (vs.zipIdx i).flatMap fun (v, j) => (items check 0 [v]).details.map (·.movedTo j) := by
  induction vs generalizing i with
  | nil => rfl
  | cons v rest ih =>
    have first : (items check 0 [v]).details.map (·.movedTo i) =
        (under (.index i) (check v)).details := by
      rw [items_single]
      cases check v <;> simp [under, details, Except.map, Detail.movedTo]
    have together : (items check i (v :: rest)).details =
        (under (.index i) (check v)).details ++ (items check (i + 1) rest).details := by
      rw [items]
      cases under (.index i) (check v) <;> cases items check (i + 1) rest <;>
        simp [both, details, Except.map]
    rw [together, ih, ← first]
    simp

theorem way_of_mem_items (v : Value) :
    ∀ d ∈ (items check 0 [v]).details, ∃ rest, d.way = .index 0 :: rest := by
  intro d member
  rw [items_single] at member
  cases checked : check v with
  | ok a => simp [checked, under, details, Except.map] at member
  | error ds =>
    rw [checked] at member
    obtain ⟨inner, -, rfl⟩ := List.mem_map.mp member
    exact ⟨inner.way, rfl⟩

end Checked

end Schema

open Schema

namespace Payload

open Json (Part Spells IsJson Refuses separated)

def ofParts (format : String) (parts : List Part) : Payload :=
  ⟨String.ofList ('[' :: (separated (parts.map Part.chars) ++ [']'])), format⟩

/-- What is decoded from a text that is not read as JSON: a defect of the text as a whole. -/
def unreadable : Checked (List Finding) := .defect .jsonInvalid

section Parts

variable (format : String) (parts : List Part)

/-- Elements that spell values are checked one by one. -/
theorem decode_ofParts (value : Part → Value)
    (each : ∀ p ∈ parts, Spells .payload 1 p.spelling (value p)) :
    (ofParts format parts).decode = Checked.items Finding.ofValue 0 (parts.map value) := by
  have spells : Spells .payload 0 ('[' :: (separated (parts.map Part.chars) ++ [']']))
      (.list (parts.map value)) := by
    cases parts with
    | nil => exact .emptyList .none (by simp [Json.Dialect.payload])
    | cons p others =>
      exact Json.spells_parts _ (List.cons_ne_nil p others) (hasRoom_payload (by decide)) value each
  refine decode_of_isTextOf ⟨.none, .none, _, spells, ?_⟩
  simp [ofParts, Json.Gaps.none]

/-- An element that is refused takes the whole payload with it. -/
theorem decode_ofParts_of_refuses
    (each : ∀ p ∈ parts, (∃ v, Spells .payload 1 p.spelling v) ∨ Refuses .payload 1 p.spelling)
    (refused : ∃ p ∈ parts, Refuses .payload 1 p.spelling) :
    (ofParts format parts).decode = unreadable := by
  have refuses := Json.refuses_parts parts (hasRoom_payload (by decide)) each refused
  obtain ⟨f, unread⟩ := refuses.readChars_eq_error (by simp)
  have bracket : Text.isBlank '[' = false := rfl
  rw [decode, ofParts, decodeText_ofList, decodeChars, unread]
  simp [bracket, unreadable]

end Parts

section Alone

variable {format : String} {p : Part}

theorem decode_alone (v : Value) (spells : Spells .payload 1 p.spelling v) :
    (ofParts format [p]).decode = Checked.items Finding.ofValue 0 [v] :=
  decode_ofParts format [p] (fun _ => v) (by simpa using spells)

theorem decode_alone_of_refuses (refuses : Refuses .payload 1 p.spelling) :
    (ofParts format [p]).decode = unreadable :=
  decode_ofParts_of_refuses format [p] (by simpa using .inr refuses) (by simpa using refuses)

/-- The defects of a value are not those of a text that is not read. -/
theorem items_ne_unreadable (v : Value) :
    Checked.items Finding.ofValue 0 [v] ≠ unreadable := by
  intro same
  obtain ⟨rest, way⟩ := Checked.way_of_mem_items Finding.ofValue v ⟨.jsonInvalid, []⟩
    (by simp [same, unreadable, Checked.defect, Checked.details])
  cases way

/-- An element by itself is not read exactly if it spells no value. -/
theorem decode_alone_eq_unreadable_iff (json : IsJson .payload 1 p.spelling) :
    (ofParts format [p]).decode = unreadable ↔ ¬ ∃ v, Spells .payload 1 p.spelling v := by
  constructor
  · rintro same ⟨v, spells⟩
    rw [decode_alone v spells] at same
    exact items_ne_unreadable v same
  · intro unspelled
    exact decode_alone_of_refuses ((json.spells_or_refuses rfl).resolve_left unspelled)

end Alone

section Together

variable (format : String) (parts : List Part)

/-- Elements that all are read are decoded together as each is by itself. -/
theorem decode_ofParts_of_read
    (read : ∀ p ∈ parts, ∃ v, Spells .payload 1 p.spelling v) :
    let whole := (ofParts format parts).decode
    let alone (p : Part) := (ofParts format [p]).decode
    (whole.isOk = true ↔ ∀ p ∈ parts, (alone p).isOk = true) ∧
    (∀ results, List.Forall₂ (fun p fs => alone p = .ok fs) parts results →
      whole = .ok results.flatten ∧ results.flatten.length = parts.length) ∧
    whole.details = parts.zipIdx.flatMap fun (p, i) => (alone p).details.map (·.movedTo i) := by
  intro whole alone
  choose! value spells using read
  have checked (p : Part) (member : p ∈ parts) :
      alone p = Checked.items Finding.ofValue 0 [value p] :=
    decode_alone (value p) (spells p member)
  have together : whole = Checked.items Finding.ofValue 0 (parts.map value) :=
    decode_ofParts format parts value spells
  refine ⟨?_, ?_, ?_⟩
  · rw [together, Checked.isOk_items, List.forall_mem_map]
    exact forall₂_congr fun p member => by rw [checked p member]
  · intro results found
    have one : List.Forall₂ (fun v fs => Checked.items Finding.ofValue 0 [v] = .ok fs)
        (parts.map value) results := by
      rw [List.forall₂_map_left_iff]
      refine ((List.forall₂_and_left _ _).mpr ⟨checked, found⟩).imp ?_
      intro p fs ⟨same, decoded⟩
      exact same.symm.trans decoded
    obtain ⟨flat, length⟩ := Checked.items_flatten Finding.ofValue one 0
    exact ⟨together.trans flat, by rw [length, List.length_map]⟩
  · rw [together, Checked.details_items, List.zipIdx_map, List.flatMap_map]
    refine List.flatMap_congr ?_
    intro ⟨p, i⟩ member
    have same := checked p (List.fst_mem_of_mem_zipIdx member)
    exact congrArg (fun c : Checked (List Finding) => c.details.map (·.movedTo i)) same.symm

/-- An element that is not read is not decoded by itself, either. -/
theorem not_forall_of_unreadable {p : Part} (member : p ∈ parts)
    (same : (ofParts format [p]).decode = unreadable) :
    ¬ ∀ p ∈ parts, ((ofParts format [p]).decode).isOk = true := by
  intro all
  have ok := all p member
  rw [same] at ok
  cases ok

theorem forall_isOk_of_forall₂ {results : List (List Finding)}
    (found : List.Forall₂ (fun p fs => (ofParts format [p]).decode = .ok fs) parts results) :
    ∀ p ∈ parts, ((ofParts format [p]).decode).isOk = true := by
  induction found with
  | nil => simp
  | cons decoded _ ih => exact List.forall_mem_cons.mpr ⟨by rw [decoded, Checked.isOk_ok], ih⟩

end Together

section Samples

/-- A value as an element. -/
def partOf (v : Value) : Part := ⟨.none, Json.chars .spaced v, .none⟩

theorem spells_partOf {v : Value} (readable : Json.Readable .payload 1 v) :
    Spells .payload 1 (partOf v).spelling v :=
  Json.spells_chars Json.Style.isPlain_spaced 1 v readable

/-- A table with the entries of a finding, nothing, and a table with an entry of the wrong type. -/
def sampleValues : List Value := [.table mixed, .null, .table [("name", .bool true)]]

theorem sampleValues_readable : ∀ v ∈ sampleValues, Json.Readable .payload 1 v := by
  simp only [sampleValues, List.forall_mem_cons]
  refine ⟨?_, .null 1, ?_, by simp⟩
  · exact .table 1 mixed (fun _ => hasRoom_payload (by decide)) (by decide) readable_mixed
  · exact .table 1 _ (fun _ => hasRoom_payload (by decide)) (by decide) (by simp [Json.Readable.bool])

/-- An integer with too many digits is refused as an element. -/
theorem refuses_partOf_int {n : Int} (long : Excess.isLong n = true) :
    Refuses .payload 1 (partOf (.int n)).spelling := by
  have many : Json.Dialect.payload.findsLong (Json.Number.ofInt n).isFloat
      (Json.Number.ofInt n).whole.length = true := by
    have digits : Excess.digitLimit < (Nat.toDigits 10 n.natAbs).length := by
      rw [← Nat.not_le, ← Decimal.isLong_eq_false_iff_length, long]
      decide
    exact decide_eq_true digits
  have refuses := Json.refuses_number (Json.Number.ofInt n) many 1
  rwa [Json.Number.chars_ofInt] at refuses

/-- The defect of an element is lost beside an integer with too many digits: by themselves the two
have one each, and together there is only that of the text. -/
theorem defect_lost_of_long {n : Int} (long : Excess.isLong n = true) :
    let parts := [partOf .null, partOf (.int n)]
    let alone (p : Part) := (ofParts defaultFormat [p]).decode
    (∀ p ∈ parts, IsJson .payload 1 p.spelling) ∧
      alone (partOf .null) = .error [⟨.modelType, [.index 0]⟩] ∧
      alone (partOf (.int n)) = .error [⟨.jsonInvalid, []⟩] ∧
      (ofParts defaultFormat parts).decode = .error [⟨.jsonInvalid, []⟩] ∧
      (ofParts defaultFormat parts).decode ≠ .error (parts.zipIdx.flatMap fun (p, i) =>
        (alone p).details.map (·.movedTo i)) := by
  intro parts alone
  have null : Spells .payload 1 (partOf .null).spelling .null := spells_partOf (.null 1)
  have refuses := refuses_partOf_int long
  have number : IsJson .payload 1 (partOf (.int n)).spelling := by
    have json : IsJson .payload 1 (Json.Number.ofInt n).chars := .number _
    rwa [Json.Number.chars_ofInt] at json
  have first : alone (partOf .null) = .error [⟨.modelType, [.index 0]⟩] :=
    decode_alone .null null
  have second : alone (partOf (.int n)) = unreadable := decode_alone_of_refuses refuses
  have whole : (ofParts defaultFormat parts).decode = unreadable :=
    decode_ofParts_of_refuses defaultFormat parts
      (by simpa [parts] using ⟨.inl ⟨_, null⟩, .inr refuses⟩) ⟨_, by simp [parts], refuses⟩
  refine ⟨by simp [parts, null.isJson, number], first, second, whole, ?_⟩
  rw [whole]
  simp [parts, first, second, unreadable, Checked.defect, Checked.details, Detail.movedTo]

end Samples

end Payload

end LintRun
