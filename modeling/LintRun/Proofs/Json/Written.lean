import Mathlib.Data.Bool.AllAny
import LintRun.Proofs.Json.RoundTrip

/-!
# Written values

What is written of a value is printable ASCII, whatever its texts hold (`isPrintable_chars`): no line
end, tab or other control character, and nothing that takes more than one byte. A value that can be
written within a limit on its depth is read again where at least as many levels are allowed
(`IsData.readable_of_writable`). Floats and moments are left out.
-/
namespace LintRun.Json

/-- A value that is made of null, booleans, integers of any size, texts, lists, and tables with
different keys, nested to any depth. -/
inductive IsData : Value → Prop where
  | null : IsData .null
  | bool (b : Bool) : IsData (.bool b)
  | int (n : Int) : IsData (.int n)
  | text (s : String) : IsData (.text s)
  | list (items : List Value) (each : ∀ v ∈ items, IsData v) : IsData (.list items)
  | table (entries : Table) (distinct : (entries.map Prod.fst).Nodup)
    (each : ∀ e ∈ entries, IsData e.2) : IsData (.table entries)

/-- What is read as it is written is such a value. -/
theorem Readable.isData {d : Dialect} {depth : Nat} {v : Value} (readable : Readable d depth v) :
    IsData v := by
  induction readable with
  | null => exact .null
  | bool _ b => exact .bool b
  | int _ n => exact .int n
  | text _ s => exact .text s
  | list _ items _ _ each => exact .list items each
  | table _ entries _ distinct _ each => exact .table entries distinct each

/-- A printable character of ASCII, or the blank. -/
def IsPrintable (c : Char) : Prop := 32 ≤ c.toNat ∧ c.toNat ≤ 126

instance (c : Char) : Decidable (IsPrintable c) :=
  inferInstanceAs (Decidable (32 ≤ c.toNat ∧ c.toNat ≤ 126))

section Printable

theorem IsPrintable.ne {c other : Char} (printable : IsPrintable c) (not : ¬ IsPrintable other) :
    c ≠ other := by
  rintro rfl
  exact not printable

theorem isPrintable_digitChar (d : Nat) (small : d < 16) : IsPrintable d.digitChar := by
  have all : ∀ d < 16, IsPrintable d.digitChar := by decide
  exact all d small

theorem isPrintable_unitEscape (n : Nat) : ∀ c ∈ unitEscape n, IsPrintable c := by
  have digit (k : Nat) : IsPrintable (n / k % 16).digitChar :=
    isPrintable_digitChar _ (Nat.mod_lt _ (by decide))
  have last : IsPrintable (n % 16).digitChar :=
    isPrintable_digitChar _ (Nat.mod_lt _ (by decide))
  simp only [unitEscape, hex4, List.map_cons, List.map_nil, List.forall_mem_cons]
  exact ⟨by decide, by decide, digit 4096, digit 256, digit 16, last, by simp⟩

theorem isPrintable_escapeChar (x : Char) : ∀ c ∈ escapeChar x, IsPrintable c := by
  unfold escapeChar
  dsimp only
  repeat' split
  -- A character is written as it is only if it is printable.
  all_goals first
    | exact List.all_iff_forall_prop.mp (by decide)
    | exact List.forall_mem_singleton.mpr ‹32 ≤ x.toNat ∧ x.toNat ≤ 126›
    | exact isPrintable_unitEscape _
    | exact List.forall_mem_append.mpr ⟨isPrintable_unitEscape _, isPrintable_unitEscape _⟩

theorem isPrintable_quote (s : String) : ∀ c ∈ quote s, IsPrintable c := by
  have inside : ∀ c ∈ s.toList.flatMap escapeChar, IsPrintable c := by
    intro c member
    obtain ⟨x, -, escaped⟩ := List.mem_flatMap.mp member
    exact isPrintable_escapeChar x c escaped
  rw [quote, List.forall_mem_cons, List.forall_mem_append]
  exact ⟨by decide, inside, List.all_iff_forall_prop.mp (by decide)⟩

theorem isPrintable_int (n : Int) : ∀ c ∈ (toString n).toList, IsPrintable c := by
  rw [toList_toString, List.forall_mem_append]
  constructor
  · split <;> exact List.all_iff_forall_prop.mp (by decide)
  · intro c member
    have digit := Decimal.isDigit_of_mem_toDigits n.natAbs c member
    simp only [Decimal.isDigit, Bool.and_eq_true, decide_eq_true_eq] at digit
    have above : '0'.toNat ≤ c.toNat := digit.1
    have below : c.toNat ≤ '9'.toNat := digit.2
    have zero : '0'.toNat = 48 := rfl
    have nine : '9'.toNat = 57 := rfl
    exact ⟨by omega, by omega⟩

/-- Commas and colons are written in printable characters. -/
structure Style.IsPrintable (style : Style) : Prop where
  comma : ∀ c ∈ style.comma.toList, Json.IsPrintable c
  colon : ∀ c ∈ style.colon.toList, Json.IsPrintable c

theorem Style.isPrintable_spaced : spaced.IsPrintable :=
  ⟨List.all_iff_forall_prop.mp (by decide), List.all_iff_forall_prop.mp (by decide)⟩

theorem Style.isPrintable_compact : compact.IsPrintable :=
  ⟨List.all_iff_forall_prop.mp (by decide), List.all_iff_forall_prop.mp (by decide)⟩

theorem Style.isPlain_compact : compact.IsPlain :=
  ⟨⟨[], rfl, by simp⟩, ⟨[], rfl, by simp⟩⟩

section Values

variable {style : Style} (visible : style.IsPrintable)

include visible

theorem isPrintable_itemChars (items : List Value)
    (each : ∀ v ∈ items, ∀ c ∈ chars style v, IsPrintable c) :
    ∀ c ∈ itemChars style items, IsPrintable c := by
  induction items with
  | nil => simp [itemChars]
  | cons v others ih =>
    obtain ⟨first, later⟩ := List.forall_mem_cons.mp each
    cases others with
    | nil => rwa [itemChars]
    | cons w rest =>
      simp only [itemChars, List.forall_mem_append]
      exact ⟨⟨first, visible.comma⟩, ih later⟩

theorem isPrintable_entryChars (entries : Table)
    (each : ∀ e ∈ entries, ∀ c ∈ chars style e.2, IsPrintable c) :
    ∀ c ∈ entryChars style entries, IsPrintable c := by
  induction entries with
  | nil => simp [entryChars]
  | cons e others ih =>
    obtain ⟨first, later⟩ := List.forall_mem_cons.mp each
    cases others with
    | nil =>
      simp only [entryChars, List.forall_mem_append]
      exact ⟨⟨isPrintable_quote e.1, visible.colon⟩, first⟩
    | cons x rest =>
      simp only [entryChars, List.forall_mem_append]
      exact ⟨⟨⟨⟨isPrintable_quote e.1, visible.colon⟩, first⟩, visible.comma⟩, ih later⟩

/-- A value is written in printable ASCII. -/
theorem isPrintable_chars {v : Value} (data : IsData v) : ∀ c ∈ chars style v, IsPrintable c := by
  induction data with
  | null =>
    rw [chars]
    exact List.all_iff_forall_prop.mp (by decide)
  | bool b =>
    cases b with
    | false =>
      rw [chars]
      exact List.all_iff_forall_prop.mp (by decide)
    | true =>
      rw [chars]
      exact List.all_iff_forall_prop.mp (by decide)
  | int n => exact isPrintable_int n
  | text s => exact isPrintable_quote s
  | list items _ each =>
    rw [chars, List.forall_mem_cons, List.forall_mem_append]
    have close : ∀ c ∈ [']'], IsPrintable c := List.all_iff_forall_prop.mp (by decide)
    exact ⟨by decide, isPrintable_itemChars visible items each, close⟩
  | table entries _ _ each =>
    rw [chars, List.forall_mem_cons, List.forall_mem_append]
    have close : ∀ c ∈ ['\x7d'], IsPrintable c := List.all_iff_forall_prop.mp (by decide)
    exact ⟨by decide, isPrintable_entryChars visible entries each, close⟩

end Values

end Printable

section Writable

theorem firstUnwritableOfList?_eq_none (depth : Nat) (items : List Value) :
    firstUnwritableOfList? depth items = none ↔
      ∀ v ∈ items, firstUnwritable? depth v = none := by
  induction items with
  | nil => simp [firstUnwritableOfList?]
  | cons v rest ih => simp [firstUnwritableOfList?, ih]

theorem firstUnwritableOfTable?_eq_none (depth : Nat) (entries : Table) :
    firstUnwritableOfTable? depth entries = none ↔
      ∀ e ∈ entries, firstUnwritable? depth e.2 = none := by
  induction entries with
  | nil => simp [firstUnwritableOfTable?]
  | cons e rest ih => simp [firstUnwritableOfTable?, ih]

/-- What can be written so deep is read where so many levels are left. -/
theorem IsData.readable_of_writable {d : Dialect} {v : Value} (data : IsData v)
    {depth inside : Nat} (takes : ∀ n, Excess.isLong n = false → d.Takes n)
    (room : d.HasRoom (inside + depth)) (writable : firstUnwritable? depth v = none) :
    Readable d inside v := by
  induction data generalizing depth inside with
  | null => exact .null inside
  | bool b => exact .bool inside b
  | int n => exact .int inside n (takes n (by simpa [firstUnwritable?] using writable))
  | text s => exact .text inside s
  | list items _ each =>
    rw [firstUnwritable?] at writable
    split at writable
    · cases writable
    · rw [firstUnwritableOfList?_eq_none] at writable
      refine .list inside items (fun _ => room.mono (by omega)) ?_
      intro v member
      exact each v member (room.mono (by omega)) (writable v member)
  | table entries distinct _ each =>
    rw [firstUnwritable?] at writable
    split at writable
    · cases writable
    · rw [firstUnwritableOfTable?_eq_none] at writable
      refine .table inside entries (fun _ => room.mono (by omega)) distinct ?_
      intro e member
      exact each e member (room.mono (by omega)) (writable e member)

/-- Without limits a value is read as it is written. -/
theorem IsData.readable {d : Dialect} {v : Value} (data : IsData v) (anyDepth : d.maxDepth = none)
    (anyDigits : d.maxDigits = none) (inside : Nat) : Readable d inside v := by
  have room (depth : Nat) : d.HasRoom depth := by
    intro most limit
    rw [anyDepth] at limit
    cases limit
  induction data generalizing inside with
  | null => exact .null inside
  | bool b => exact .bool inside b
  | int n =>
    refine .int inside n ?_
    intro most limit
    rw [anyDigits] at limit
    cases limit
  | text s => exact .text inside s
  | list items _ each =>
    exact .list inside items (fun _ => room _) fun v member => each v member (inside + 1)
  | table entries distinct _ each =>
    exact .table inside entries (fun _ => room _) distinct
      fun e member => each e member (inside + 1)

theorem exists_of_firstUnwritableOfList? {depth : Nat} {items : List Value} {u : Unwritable}
    (found : firstUnwritableOfList? depth items = some u) :
    ∃ v ∈ items, firstUnwritable? depth v = some u := by
  induction items with
  | nil => cases found
  | cons v rest ih =>
    rcases Option.or_eq_some_iff.mp found with first | ⟨-, later⟩
    · exact ⟨v, by simp, first⟩
    · obtain ⟨w, member, here⟩ := ih later
      exact ⟨w, by simp [member], here⟩

theorem exists_of_firstUnwritableOfTable? {depth : Nat} {entries : Table} {u : Unwritable}
    (found : firstUnwritableOfTable? depth entries = some u) :
    ∃ e ∈ entries, firstUnwritable? depth e.2 = some u := by
  induction entries with
  | nil => cases found
  | cons e rest ih =>
    rcases Option.or_eq_some_iff.mp found with first | ⟨-, later⟩
    · exact ⟨e, by simp, first⟩
    · obtain ⟨x, member, here⟩ := ih later
      exact ⟨x, by simp [member], here⟩

/-- Only too long an integer, or too many levels, can keep a value from being written. -/
theorem IsData.isExcess {v : Value} (data : IsData v) {depth : Nat} {u : Unwritable}
    (found : firstUnwritable? depth v = some u) : ∃ x, u = .excess x := by
  induction data generalizing depth with
  | null | bool | text => cases found
  | int n =>
    rw [firstUnwritable?] at found
    split at found <;> cases found
    exact ⟨_, rfl⟩
  | list items _ each =>
    rw [firstUnwritable?] at found
    split at found
    · cases found
      exact ⟨_, rfl⟩
    · obtain ⟨v, member, here⟩ := exists_of_firstUnwritableOfList? found
      exact each v member here
  | table entries _ _ each =>
    rw [firstUnwritable?] at found
    split at found
    · cases found
      exact ⟨_, rfl⟩
    · obtain ⟨e, member, here⟩ := exists_of_firstUnwritableOfTable? found
      exact each e member here

end Writable

end LintRun.Json
