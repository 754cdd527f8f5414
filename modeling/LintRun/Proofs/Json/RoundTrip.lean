import LintRun.Proofs.Entries
import LintRun.Proofs.Json.Grammar
import LintRun.Proofs.Json.Integers

/-!
# Values there and back

A value is written in one of the ways in which it is spelled (`spells_chars`), so it is read as it
was. Floats and moments are left out, and so are tables with a key twice: what is read keeps the
last entry under a key.
-/
namespace LintRun.Json

/-- A value that is read as it is written when it stands inside so many lists and tables. -/
inductive Readable (d : Dialect) : Nat → Value → Prop where
  | null (depth : Nat) : Readable d depth .null
  | bool (depth : Nat) (b : Bool) : Readable d depth (.bool b)
  | int (depth : Nat) (n : Int) (takes : d.Takes n) : Readable d depth (.int n)
  | text (depth : Nat) (s : String) : Readable d depth (.text s)
  | list (depth : Nat) (items : List Value)
    (room : items ≠ [] ∨ d.countsEmpty = true → d.HasRoom (depth + 1))
    (each : ∀ v ∈ items, Readable d (depth + 1) v) : Readable d depth (.list items)
  | table (depth : Nat) (entries : Table)
    (room : entries ≠ [] ∨ d.countsEmpty = true → d.HasRoom (depth + 1))
    (distinct : (entries.map Prod.fst).Nodup)
    (each : ∀ e ∈ entries, Readable d (depth + 1) e.2) : Readable d depth (.table entries)

/-- Commas and colons are followed by nothing but blanks. -/
structure Style.IsPlain (style : Style) : Prop where
  comma : ∃ gaps, style.comma.toList = ',' :: gaps ∧ ∀ c ∈ gaps, isGap c = true
  colon : ∃ gaps, style.colon.toList = ':' :: gaps ∧ ∀ c ∈ gaps, isGap c = true

theorem Style.isPlain_spaced : spaced.IsPlain :=
  ⟨⟨[' '], rfl, by simp [isGap]⟩, ⟨[' '], rfl, by simp [isGap]⟩⟩

section Written

variable (style : Style)

/-- An item as it is written behind blanks. -/
def Item.written (before : Gaps) (v : Value) : Item := ⟨before, Json.chars style v, .none, v⟩

/-- An entry as it is written behind blanks, with blanks behind its colon. -/
def Member.written (colon before : Gaps) (e : String × Value) : Member where
  before := before
  spelling := e.1.toList.flatMap escapeChar
  key := e.1
  after := .none
  item := Item.written style colon e.2
  spells := spellsText_escaped e.1.toList

theorem separated_items (comma : Gaps) (plain : style.comma.toList = ',' :: comma.1) (before : Gaps)
    (v : Value) (others : List Value) :
    separated ((Item.written style before v :: others.map (Item.written style comma)).map
      Item.chars) = before.1 ++ itemChars style (v :: others) := by
  induction others generalizing before v with
  | nil => simp [separated, Item.chars, Item.written, itemChars, Gaps.none]
  | cons w others ih =>
    have later := ih comma w
    simp only [List.map_cons, separated] at later ⊢
    rw [later]
    simp [Item.chars, Item.written, itemChars, plain, Gaps.none]

theorem separated_members (comma colon : Gaps) (plain : style.comma.toList = ',' :: comma.1)
    (parted : style.colon.toList = ':' :: colon.1) (before : Gaps) (e : String × Value)
    (others : Table) :
    separated ((Member.written style colon before e ::
      others.map (Member.written style colon comma)).map Member.chars) =
        before.1 ++ entryChars style (e :: others) := by
  induction others generalizing before e with
  | nil =>
    simp [separated, Member.chars, Member.written, Item.chars, Item.written, entryChars, quote,
      parted, Gaps.none]
  | cons x others ih =>
    have later := ih comma x
    simp only [List.map_cons, separated] at later ⊢
    rw [later]
    simp [Member.chars, Member.written, Item.chars, Item.written, entryChars, quote, plain, parted,
      Gaps.none]

end Written

section Values

variable {d : Dialect} {style : Style}

/-- A value is spelled as it is written. -/
theorem spells_chars (plain : style.IsPlain) (depth : Nat) (v : Value)
    (readable : Readable d depth v) : Spells d depth (chars style v) v := by
  obtain ⟨comma, commaText, commaBlank⟩ := plain.comma
  obtain ⟨colon, colonText, colonBlank⟩ := plain.colon
  induction readable with
  | null depth => exact .word (w := "null") (by simp [words])
  | bool depth b =>
    cases b with
    | true => exact .word (w := "true") (by simp [words])
    | false => exact .word (w := "false") (by simp [words])
  | int depth n takes =>
    have spells : Spells d depth (Number.ofInt n).chars (Number.ofInt n).value :=
      .number (Number.ofInt n) (Number.findsLong_ofInt d n takes)
    rwa [Number.chars_ofInt, Number.value_ofInt] at spells
  | text depth s =>
    have spells : Spells d depth (quote s) (.text (String.ofList s.toList)) :=
      .text (spellsText_escaped s.toList)
    rwa [String.ofList_toList] at spells
  | list depth items room _ each =>
    cases items with
    | nil => exact .emptyList .none fun counts => room (.inr counts)
    | cons v others =>
      have spells := Spells.list (Item.written style .none v ::
        others.map (Item.written style ⟨comma, commaBlank⟩)) (by simp) (room (.inl (by simp)))
        (List.forall_mem_cons.mpr ⟨each v (by simp), List.forall_mem_map.mpr fun w member =>
          each w (by simp [member])⟩)
      rw [separated_items style ⟨comma, commaBlank⟩ commaText .none v others] at spells
      simpa [Item.written, Function.comp_def, Gaps.none, chars] using spells
  | table depth entries room distinct _ each =>
    cases entries with
    | nil => exact .emptyTable .none fun counts => room (.inr counts)
    | cons e others =>
      have spells := Spells.table
        (Member.written style ⟨colon, colonBlank⟩ .none e ::
          others.map (Member.written style ⟨colon, colonBlank⟩ ⟨comma, commaBlank⟩))
        (by simp) (room (.inl (by simp)))
        (List.forall_mem_cons.mpr ⟨each e (by simp), List.forall_mem_map.mpr fun x member =>
          each x (by simp [member])⟩)
      rw [separated_members style ⟨comma, commaBlank⟩ ⟨colon, colonBlank⟩ commaText colonText .none
        e others] at spells
      have entries : (Member.written style ⟨colon, colonBlank⟩ .none e ::
          others.map (Member.written style ⟨colon, colonBlank⟩ ⟨comma, commaBlank⟩)).map
            Member.entry = e :: others := by
        simp [Member.written, Member.entry, Item.written, Function.comp_def]
      rw [entries, Entries.ofList_of_nodup _ distinct] at spells
      simpa [Gaps.none, chars] using spells

/-- What is written is read again, in any dialect that has room for it. -/
theorem readChars_chars (plain : style.IsPlain) (v : Value) (readable : Readable d 0 v) :
    readChars d (chars style v) = .ok v := by
  have read := readChars_of_spells .none .none (spells_chars plain 0 v readable)
  rwa [Gaps.none, List.nil_append, List.append_nil] at read

end Values

end LintRun.Json
