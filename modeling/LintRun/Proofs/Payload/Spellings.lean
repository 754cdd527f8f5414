import LintRun.Proofs.Decoded
import LintRun.Proofs.Json.Limits
import LintRun.Proofs.Payload.RoundTrip

/-!
# The spellings of a finding

A table holds a finding if it has an entry for each of its fields, under either spelling of the key
and in any order, beside entries under other keys (`Finding.IsHeldBy`). A text that spells tables
that hold findings, in whichever way, is decoded to these findings, and an entry under the second
spelling of a key does nothing where the first one is there (`decode_of_isHeldBy`). What the reader
has no room for, or does not take for its digits, is no spelling: an integer with too many digits
makes the whole text invalid, under whichever key it stands (`decode_of_long`).
-/
namespace LintRun

open Schema

def Point.keys : List String := ["position", "line", "character"]

/-- A table has the entries of a place, in any order, beside entries under other keys. -/
def Point.IsHeldBy (p : Point) (t : Table) : Prop :=
  ∃ others : Table, (∀ e ∈ others, e.1 ∉ keys) ∧ t.Perm
    ([("position", .int p.offset), ("line", .int p.line), ("character", .int p.column)] ++ others)

namespace Finding

/-- The keys that have a second spelling, each with it. -/
def spellings : List (String × String) :=
  [("startPosition", "start_position"), ("endPosition", "end_position"), ("ruleName", "rule_name")]

/-- The keys of a finding, in all their spellings. -/
def keys : List String := ["name", "failure"] ++ spellings.flatMap fun (key, other) => [key, other]

/-- A table has the entries of a finding, in any order and with each key in one of its spellings,
beside entries under other keys. -/
inductive IsHeldBy (f : Finding) : Value → Prop where
  | table {t start stop others : Table} {startKey stopKey ruleKey : String}
    (startSpelled : startKey = "startPosition" ∨ startKey = "start_position")
    (startHeld : f.start.IsHeldBy start)
    (stopSpelled : stopKey = "endPosition" ∨ stopKey = "end_position")
    (stopHeld : f.stop.IsHeldBy stop)
    (ruleSpelled : ruleKey = "ruleName" ∨ ruleKey = "rule_name")
    (further : ∀ e ∈ others, e.1 ∉ keys)
    (perm : t.Perm ([("name", .text f.file), ("failure", .text f.message),
      (startKey, .table start), (stopKey, .table stop), (ruleKey, .text f.rule)] ++ others)) :
    IsHeldBy f (.table t)

/-- A value becomes another one when entries under the second spelling of a key are taken out of a
table that has the first one, too. -/
inductive LosesTo : Value → Value → Prop where
  | refl (v : Value) : LosesTo v v
  | erase {t : Table} {key other : String} {v : Value} (spelled : (key, other) ∈ spellings)
    (there : (Entries.get? key t).isSome = true)
    (later : LosesTo (.table (Entries.erase other t)) v) : LosesTo (.table t) v

end Finding

/-- A place is read from a table that holds it. -/
theorem Point.ofValue_of_isHeldBy {p : Point} {t : Table} (held : p.IsHeldBy t) :
    ofValue (.table t) = .ok p := by
  obtain ⟨others, further, perm⟩ := held
  have found (key : String) (n : Int) (member : (key, Value.int n) ∈ [("position", .int p.offset),
      ("line", .int p.line), ("character", .int p.column)]) :
      Entries.get? key t = some (.int n) := by
    refine Entries.get?_of_perm perm (by simp) member fun e inside same => further e inside ?_
    rw [same]
    exact List.mem_map_of_mem (f := Prod.fst) member
  refine (ofTable_eq_ok t p).mpr ⟨?_, ?_, ?_⟩
  · rw [withDefault, found "position" p.offset (by simp)]
    rfl
  · exact required_of_get? (found "line" p.line (by simp)) rfl
  · exact required_of_get? (found "character" p.column (by simp)) rfl

namespace Finding

/-- A finding is read from a table that holds it. -/
theorem ofValue_of_isHeldBy {f : Finding} {v : Value} (held : f.IsHeldBy v) :
    ofValue v = .ok f := by
  cases held with
  | @table t start stop others startKey stopKey ruleKey startSpelled startHeld stopSpelled stopHeld
    ruleSpelled further perm =>
    -- Whichever spellings are used, the five keys differ, and only they are looked for.
    have keyed : (["name", "failure", startKey, stopKey, ruleKey] : List String).Nodup ∧
        (∀ key ∈ ["name", "failure", startKey, stopKey, ruleKey], key ∈ keys) ∧
        (startKey ≠ "startPosition" → "startPosition" ∉ [startKey, stopKey, ruleKey]) ∧
        (stopKey ≠ "endPosition" → "endPosition" ∉ [startKey, stopKey, ruleKey]) ∧
        (ruleKey ≠ "ruleName" → "ruleName" ∉ [startKey, stopKey, ruleKey]) := by
      rcases startSpelled with rfl | rfl <;> rcases stopSpelled with rfl | rfl <;>
        rcases ruleSpelled with rfl | rfl <;> decide
    obtain ⟨distinct, known, noStart, noStop, noRule⟩ := keyed
    have found (key : String) (v : Value) (member : (key, v) ∈ [("name", Value.text f.file),
        ("failure", .text f.message), (startKey, .table start), (stopKey, .table stop),
        (ruleKey, .text f.rule)]) : Entries.get? key t = some v := by
      refine Entries.get?_of_perm perm distinct member fun e inside same => further e inside ?_
      exact same ▸ known key (List.mem_map_of_mem (f := Prod.fst) member)
    have absent (key : String) (isKey : key ∈ keys) (plain : key ≠ "name" ∧ key ≠ "failure")
        (unused : key ∉ [startKey, stopKey, ruleKey]) : Entries.get? key t = none := by
      refine Entries.get?_eq_none_of_perm perm (by simpa [plain] using unused) ?_
      exact fun e inside same => further e inside (same ▸ isKey)
    refine (ofTable_eq_ok t f).mpr ⟨?_, ?_, ?_, ?_, ?_⟩
    · exact required_of_get? (found "name" (.text f.file) (by simp)) rfl
    · exact required_of_get? (found "failure" (.text f.message) (by simp)) rfl
    · exact requiredEither_of_get? startSpelled (found startKey _ (by simp))
        (fun second => absent _ (by decide) (by decide) (noStart second))
        (Point.ofValue_of_isHeldBy startHeld)
    · exact requiredEither_of_get? stopSpelled (found stopKey _ (by simp))
        (fun second => absent _ (by decide) (by decide) (noStop second))
        (Point.ofValue_of_isHeldBy stopHeld)
    · exact requiredEither_of_get? ruleSpelled (found ruleKey (.text f.rule) (by simp))
        (fun second => absent _ (by decide) (by decide) (noRule second)) rfl

/-- No key is the second spelling of another one, and none of two. -/
theorem spellings_apart : ∀ p ∈ spellings, ∀ q ∈ spellings,
    p.1 ≠ q.2 ∧ (p.2 = q.2 → p.1 = q.1) ∧ "name" ≠ q.2 ∧ "failure" ≠ q.2 := by
  decide

/-- Without the entry under the second spelling of a key the same is read, or the same is wrong. -/
theorem ofTable_erase {t : Table} {key other : String} (spelled : (key, other) ∈ spellings)
    (there : (Entries.get? key t).isSome = true) : ofTable (Entries.erase other t) = ofTable t := by
  have kept (key : String) (differ : key ≠ other) :
      Entries.get? key (Entries.erase other t) = Entries.get? key t :=
    Entries.get?_erase_of_ne differ t
  have either {α : Type} (check : Value → Checked α) (first second : String)
      (pair : (first, second) ∈ spellings) :
      requiredEither check first second (Entries.erase other t) =
        requiredEither check first second t := by
    obtain ⟨differ, alike, -⟩ := spellings_apart _ pair _ spelled
    refine requiredEither_congr (kept first differ) ?_
    by_cases same : second = other
    · obtain rfl : first = key := alike same
      exact .inl (by rwa [kept first differ])
    · exact .inr (kept second same)
  obtain ⟨-, -, name, failure⟩ := spellings_apart _ spelled _ spelled
  simp only [ofTable, required_congr (kept "name" name), required_congr (kept "failure" failure)]
  rw [either Point.ofValue "startPosition" "start_position" (by decide),
    either Point.ofValue "endPosition" "end_position" (by decide),
    either text "ruleName" "rule_name" (by decide)]

theorem ofValue_of_losesTo {v w : Value} (loses : LosesTo v w) : ofValue v = ofValue w := by
  induction loses with
  | refl => rfl
  | erase spelled there _ ih =>
    rw [← ih]
    exact (ofTable_erase spelled there).symm

end Finding

namespace Payload

open Json (IsTextOf)

/-- A text that spells a list is not blank. -/
theorem isBlankText_of_isTextOf {d : Json.Dialect} {s : String} {vs : List Value}
    (spelled : IsTextOf d s (.list vs)) : Text.isBlankText s = false := by
  obtain ⟨before, after, cs, spells, chars⟩ := spelled
  obtain ⟨others, rfl⟩ := spells.exists_list_eq_cons
  have bracket : Text.isBlank '[' = false := rfl
  rw [Text.isBlankText, chars]
  simp [bracket]

/-- The items of a list that a payload spells are read one by one. -/
theorem decode_of_isTextOf {p : Payload} {vs : List Value}
    (spelled : IsTextOf .payload p.output (.list vs)) :
    p.decode = Checked.items Finding.ofValue 0 vs := by
  rw [decode, decodeText, isBlankText_of_isTextOf spelled, if_neg (by decide),
    Json.read_of_isTextOf spelled]
  rfl

/-- A list with an integer of too many digits in it, wherever it stands, is refused as a whole. -/
theorem decode_of_long {p : Payload} {vs : List Value} {n : Int}
    (spelled : IsTextOf anyDigits p.output (.list vs)) (holds : (Value.list vs).Holds n)
    (long : Excess.isLong n = true) : p.decode = .error [⟨.jsonInvalid, []⟩] := by
  have tooLong : ¬ Json.Dialect.payload.Takes n := fun takes => by
    rw [(Decimal.isLong_eq_false_iff_length n).mpr (takes _ rfl)] at long
    cases long
  obtain ⟨f, refused⟩ := Json.exists_error_of_long .payload (Json.read_of_isTextOf spelled) holds
    tooLong
  rw [decode, decodeText, isBlankText_of_isTextOf spelled, if_neg (by decide), Json.read, refused]
  rfl

section Samples

open Json

/-- A finding at the start of a file. -/
def plain : Finding := ⟨"a.ts", "m", ⟨0, 0, 0⟩, ⟨2, 0, 2⟩, "r"⟩

/-- The table of its first place, with a key that is not known. -/
def startTable : Table :=
  [("position", .int 0), ("line", .int 0), ("character", .int 0), ("z", .text "é")]

/-- The table of its second place. -/
def stopTable : Table := [("line", .int 0), ("position", .int 2), ("character", .int 2)]

/-- Its entries, under either spelling of their keys, beside one under another key. -/
def mixed : Table :=
  [("x", .list [.null, .table [("y", .int 3)]]), ("rule_name", .text "r"),
    ("endPosition", .table stopTable), ("start_position", .table startTable),
    ("failure", .text "m"), ("name", .text "a.ts")]

theorem plain_isHeldBy_mixed : plain.IsHeldBy (.table mixed) := by
  have start : plain.start.IsHeldBy startTable := ⟨[("z", .text "é")], by decide, .refl _⟩
  have stop : plain.stop.IsHeldBy stopTable := ⟨[], by simp, .swap _ _ _⟩
  exact .table (.inr rfl) start (.inl rfl) stop (.inr rfl)
    (show ∀ e ∈ ([("x", .list [.null, .table [("y", .int 3)]])] : Table), e.1 ∉ Finding.keys by
      decide) (List.reverse_perm mixed).symm

/-- The same with an entry of the wrong type under a second spelling. -/
def twice : Table := ("end_position", .bool true) :: mixed

theorem twice_losesTo_mixed : Finding.LosesTo (.table twice) (.table mixed) :=
  .erase (show ("endPosition", "end_position") ∈ Finding.spellings by decide) rfl (.refl _)

theorem hasRoom_payload {depth : Nat} (few : depth ≤ 200) : Dialect.payload.HasRoom depth := by
  rintro most ⟨⟩
  exact few

theorem readable_digit (depth : Nat) (n : Int) (small : n.natAbs < 10) :
    Readable .payload depth (.int n) := by
  refine .int depth n ?_
  rintro most ⟨⟩
  rw [Nat.toDigits_of_lt_base small]
  show 1 ≤ Excess.digitLimit
  decide

theorem readable_mixed : ∀ e ∈ mixed, Readable .payload 2 e.2 := by
  have start : Readable .payload 2 (.table startTable) :=
    .table _ _ (fun _ => hasRoom_payload (by decide)) (by decide)
      (by simp [startTable, readable_digit, Readable.text])
  have stop : Readable .payload 2 (.table stopTable) :=
    .table _ _ (fun _ => hasRoom_payload (by decide)) (by decide)
      (by simp [stopTable, readable_digit])
  have inner : Readable .payload 3 (.table [("y", .int 3)]) :=
    .table _ _ (fun _ => hasRoom_payload (by decide)) (by decide) (by simp [readable_digit])
  have unknown : Readable .payload 2 (.list [.null, .table [("y", .int 3)]]) :=
    .list _ _ (fun _ => hasRoom_payload (by decide)) (by simp [inner, Readable.null])
  simp [mixed, start, stop, unknown, Readable.text]

/-- A list of one table is spelled as it is printed. -/
theorem isTextOf_print {d : Dialect} {t : Table} (room : d.HasRoom 2)
    (distinct : (t.map Prod.fst).Nodup) (each : ∀ e ∈ t, Readable d 2 e.2) :
    IsTextOf d (print .spaced (.list [.table t])) (.list [.table t]) := by
  have inner : Readable d 1 (.table t) := .table 1 t (fun _ => room) distinct each
  have readable : Readable d 0 (.list [.table t]) :=
    .list _ _ (fun _ => room.mono (by decide)) (by simpa using inner)
  exact ⟨.none, .none, _, spells_chars Style.isPlain_spaced 0 _ readable, by
    simp [print, Gaps.none]⟩

/-- How the two lists are written. -/
def mixedText : String :=
  "[\x7b\"x\": [null, \x7b\"y\": 3\x7d], \"rule_name\": \"r\", " ++
    "\"endPosition\": \x7b\"line\": 0, \"position\": 2, \"character\": 2\x7d, " ++
    "\"start_position\": \x7b\"position\": 0, \"line\": 0, \"character\": 0, " ++
    "\"z\": \"\\u00e9\"\x7d, \"failure\": \"m\", \"name\": \"a.ts\"\x7d]"

def twiceText : String :=
  "[\x7b\"end_position\": true, \"x\": [null, \x7b\"y\": 3\x7d], \"rule_name\": \"r\", " ++
    "\"endPosition\": \x7b\"line\": 0, \"position\": 2, \"character\": 2\x7d, " ++
    "\"start_position\": \x7b\"position\": 0, \"line\": 0, \"character\": 0, " ++
    "\"z\": \"\\u00e9\"\x7d, \"failure\": \"m\", \"name\": \"a.ts\"\x7d]"

theorem isTextOf_mixedText : IsTextOf .payload mixedText (.list [.table mixed]) := by
  have written : print .spaced (.list [.table mixed]) = mixedText := by cbv
  exact written ▸ isTextOf_print (hasRoom_payload (by decide)) (by decide) readable_mixed

theorem isTextOf_twiceText : IsTextOf .payload twiceText (.list [.table twice]) := by
  have written : print .spaced (.list [.table twice]) = twiceText := by cbv
  refine written ▸ isTextOf_print (hasRoom_payload (by decide)) (by decide) ?_
  exact List.forall_mem_cons.mpr ⟨.bool _ _, readable_mixed⟩

/-- The table of the finding as it is written, and a power of ten under another key. -/
def tableWith (zeros : Nat) : Table :=
  [("name", .text "a.ts"), ("failure", .text "m"), ("startPosition", plain.start.toValue),
    ("endPosition", plain.stop.toValue), ("ruleName", .text "r"), ("x", .int (10 ^ zeros))]

/-- How a list of this table is written. -/
def textWith (zeros : Nat) : String := print .spaced (.list [.table (tableWith zeros)])

theorem plain_isHeldBy_tableWith (zeros : Nat) : plain.IsHeldBy (.table (tableWith zeros)) :=
  .table (.inl rfl) ⟨[], by simp, .refl _⟩ (.inl rfl) ⟨[], by simp, .refl _⟩ (.inl rfl)
    (show ∀ e ∈ ([("x", .int (10 ^ zeros))] : Table), e.1 ∉ Finding.keys by
      simp [Finding.keys, Finding.spellings]) (.refl _)

theorem isTextOf_textWith (zeros : Nat) :
    IsTextOf anyDigits (textWith zeros) (.list [.table (tableWith zeros)]) := by
  have takes (n : Int) : anyDigits.Takes n := by rintro most ⟨⟩
  have start : Readable anyDigits 2 plain.start.toValue :=
    plain.start.readable_toValue 2 (hasRoom_payload (by decide)) fun n _ => takes n
  have stop : Readable anyDigits 2 plain.stop.toValue :=
    plain.stop.readable_toValue 2 (hasRoom_payload (by decide)) fun n _ => takes n
  refine isTextOf_print (hasRoom_payload (by decide)) (by simp [tableWith]) ?_
  simp only [tableWith, List.forall_mem_cons]
  exact ⟨.text _ _, .text _ _, start, stop, .text _ _, .int _ _ (takes _), by simp⟩

theorem decode_textWith (zeros : Nat) (many : Excess.digitLimit ≤ zeros) :
    (ofText (textWith zeros)).decode = .error [⟨.jsonInvalid, []⟩] := by
  have holds : (Value.list [.table (tableWith zeros)]).Holds (10 ^ zeros) :=
    .item [_] _ (List.mem_singleton_self _)
      (.entry (tableWith zeros) ("x", .int (10 ^ zeros)) (by simp [tableWith]) .int)
  exact decode_of_long (p := ofText _) (isTextOf_textWith zeros) holds (Decimal.isLong_pow many)

end Samples

end Payload

end LintRun
