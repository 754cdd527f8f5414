import LintRun.Finding
import LintRun.Proofs.Checks
import LintRun.Proofs.Json.Sizes

/-!
# Findings as values

A place and a finding are read field by field (`Point.ofTable_eq_ok`, `Finding.ofTable_eq_ok`), each
field from one of the entries. So a finding has a number that is too long to be written only if the
value that it is read from holds one.
-/
namespace LintRun

open Schema

def Point.numbers (p : Point) : List Int := [p.offset, p.line, p.column]

def Finding.numbers (f : Finding) : List Int := f.start.numbers ++ f.stop.numbers

/-- A finding has a number with more digits than may be written. -/
def Finding.isLong (f : Finding) : Bool := f.numbers.any Excess.isLong

/-- A finding is read as it is written: both go through the same keys. -/
theorem Finding.ofValue_toValue (f : Finding) : Finding.ofValue f.toValue = .ok f := rfl

/-- No integer of a value has more digits than may be written. -/
def Value.IsShort (v : Value) : Prop := ∀ n, v.Holds n → Excess.isLong n = false

theorem Value.IsShort.entry {t : Table} (short : Value.IsShort (.table t)) (e : String × Value)
    (member : e ∈ t) : e.2.IsShort :=
  fun n inside => short n (.entry t e member inside)

theorem Value.IsShort.item {vs : List Value} (short : Value.IsShort (.list vs)) (v : Value)
    (member : v ∈ vs) : v.IsShort :=
  fun n inside => short n (.item vs v member inside)

theorem Value.IsShort.int {v : Value} {n : Int} (short : v.IsShort)
    (checked : Schema.int v = .ok n) : Excess.isLong n = false :=
  int_isLong v n checked fun m same => short m (same ▸ .int)

/-- A place is read field by field. -/
theorem Point.ofTable_eq_ok (t : Table) (p : Point) :
    ofTable t = .ok p ↔
      withDefault int "position" 0 t = .ok p.offset ∧ required int "line" t = .ok p.line ∧
        required int "character" t = .ok p.column := by
  simp only [ofTable, Checked.apply_eq_ok, Except.ok.injEq]
  constructor
  · rintro ⟨_, _, ⟨_, _, ⟨_, _, rfl, offset, rfl⟩, line, rfl⟩, column, rfl⟩
    exact ⟨offset, line, column⟩
  · rintro ⟨offset, line, column⟩
    exact ⟨_, _, ⟨_, _, ⟨_, _, rfl, offset, rfl⟩, line, rfl⟩, column, rfl⟩

/-- A finding is read field by field. -/
theorem Finding.ofTable_eq_ok (t : Table) (f : Finding) :
    ofTable t = .ok f ↔
      required text "name" t = .ok f.file ∧ required text "failure" t = .ok f.message ∧
        requiredEither Point.ofValue "startPosition" "start_position" t = .ok f.start ∧
        requiredEither Point.ofValue "endPosition" "end_position" t = .ok f.stop ∧
        requiredEither text "ruleName" "rule_name" t = .ok f.rule := by
  simp only [ofTable, Checked.apply_eq_ok, Except.ok.injEq]
  constructor
  · rintro ⟨_, _, ⟨_, _, ⟨_, _, ⟨_, _, ⟨_, _, rfl, file, rfl⟩, message, rfl⟩, start, rfl⟩, stop,
      rfl⟩, rule, rfl⟩
    exact ⟨file, message, start, stop, rule⟩
  · rintro ⟨file, message, start, stop, rule⟩
    exact ⟨_, _, ⟨_, _, ⟨_, _, ⟨_, _, ⟨_, _, rfl, file, rfl⟩, message, rfl⟩, start, rfl⟩, stop,
      rfl⟩, rule, rfl⟩

theorem Point.isLong_of_ofValue (v : Value) (p : Point) (short : v.IsShort)
    (checked : ofValue v = .ok p) : ∀ n ∈ p.numbers, Excess.isLong n = false := by
  cases v with
  | table t =>
    have field (e : String × Value) (member : e ∈ t) (n : Int) (given : int e.2 = .ok n) :
        Excess.isLong n = false := (short.entry e member).int given
    obtain ⟨offset, line, column⟩ := (ofTable_eq_ok t p).mp checked
    obtain ⟨e, lineEntry, lineRead⟩ := exists_of_required int "line" t p.line line
    obtain ⟨x, columnEntry, columnRead⟩ := exists_of_required int "character" t p.column column
    have placed : Excess.isLong p.offset = false := by
      rcases exists_of_withDefault int "position" t p.offset 0 offset with none | ⟨y, member, given⟩
      · rw [none]
        exact Decimal.isLong_eq_false_of_lt 0 (by decide)
      · exact field y member p.offset given
    simp only [numbers, List.forall_mem_cons]
    exact ⟨placed, field e lineEntry _ lineRead, field x columnEntry _ columnRead, by simp⟩
  | _ => cases checked

theorem Finding.isLong_of_ofValue (v : Value) (f : Finding) (short : v.IsShort)
    (checked : ofValue v = .ok f) : f.isLong = false := by
  cases v with
  | table t =>
    obtain ⟨-, -, start, stop, -⟩ := (ofTable_eq_ok t f).mp checked
    obtain ⟨e, startEntry, startRead⟩ := exists_of_requiredEither _ _ t f.start _ start
    obtain ⟨x, stopEntry, stopRead⟩ := exists_of_requiredEither _ _ t f.stop _ stop
    have front := Point.isLong_of_ofValue e.2 f.start (short.entry e startEntry) startRead
    have back := Point.isLong_of_ofValue x.2 f.stop (short.entry x stopEntry) stopRead
    have none : ∀ n ∈ f.numbers, Excess.isLong n = false :=
      List.forall_mem_append.mpr ⟨front, back⟩
    exact List.any_eq_false.mpr (by simpa using none)
  | _ => cases checked

end LintRun
