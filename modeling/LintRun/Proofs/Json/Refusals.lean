import LintRun.Proofs.Json.Grammar
import LintRun.Proofs.Json.Surrogates

/-!
# Refused JSON

A text may be JSON by its form (`IsJson`) and still not be read: a number may have too many digits,
and an escaped surrogate may have no partner. What has this form either spells a value or is refused
wherever it stands (`IsJson.spells_or_refuses`), so a list or table with a refused part in it is
refused as a whole.
-/
namespace LintRun.Json

open LintRun.Decimal (isDigit)

/-- An item of a list, of which only the characters are told. -/
structure Part where
  before : Gaps
  spelling : List Char
  after : Gaps

def Part.chars (p : Part) : List Char := p.before.1 ++ (p.spelling ++ p.after.1)

/-- An entry of a table, of which only the characters and the pieces of the key are told. -/
structure Pair where
  before : Gaps
  key : List Char
  pieces : List Piece
  after : Gaps
  part : Part
  string : IsString key pieces

def Pair.chars (p : Pair) : List Char :=
  p.before.1 ++ ('"' :: (p.key ++ ['"']) ++ (p.after.1 ++ (':' :: p.part.chars)))

/-- Characters are JSON by their form, inside so many lists and tables: with numbers of any length,
and with any code units as escapes. -/
inductive IsJson (d : Dialect) : Nat → List Char → Prop where
  | word {depth : Nat} {w : String} {v : Value} (named : (w, v) ∈ words) : IsJson d depth w.toList
  | number {depth : Nat} (n : Number) : IsJson d depth n.chars
  | text {depth : Nat} {cs : List Char} {ps : List Piece} (string : IsString cs ps) :
    IsJson d depth ('"' :: (cs ++ ['"']))
  | emptyList {depth : Nat} (gaps : Gaps) (room : d.countsEmpty = true → d.HasRoom (depth + 1)) :
    IsJson d depth ('[' :: (gaps.1 ++ [']']))
  | list {depth : Nat} (parts : List Part) (some : parts ≠ []) (room : d.HasRoom (depth + 1))
    (each : ∀ p ∈ parts, IsJson d (depth + 1) p.spelling) :
    IsJson d depth ('[' :: (separated (parts.map Part.chars) ++ [']']))
  | emptyTable {depth : Nat} (gaps : Gaps) (room : d.countsEmpty = true → d.HasRoom (depth + 1)) :
    IsJson d depth ('\x7b' :: (gaps.1 ++ ['\x7d']))
  | table {depth : Nat} (pairs : List Pair) (some : pairs ≠ []) (room : d.HasRoom (depth + 1))
    (each : ∀ p ∈ pairs, IsJson d (depth + 1) p.part.spelling) :
    IsJson d depth ('\x7b' :: (separated (pairs.map Pair.chars) ++ ['\x7d']))

/-- What spells a value is JSON by its form. -/
theorem Spells.isJson {d : Dialect} {depth : Nat} {cs : List Char} {v : Value}
    (spells : Spells d depth cs v) : IsJson d depth cs := by
  induction spells with
  | word named => exact .word named
  | number n _ => exact .number n
  | text spells =>
    obtain ⟨ps, string⟩ := spells.exists_isString
    exact .text string
  | emptyList gaps room => exact .emptyList gaps room
  | list items some room _ each =>
    have json := IsJson.list (items.map fun i => ⟨i.before, i.spelling, i.after⟩)
      (by simpa using some) room (List.forall_mem_map.mpr each)
    rw [List.map_map] at json
    exact json
  | emptyTable gaps room => exact .emptyTable gaps room
  | table members some room _ each =>
    choose pieces string using fun m : Member => m.spells.exists_isString
    have json := IsJson.table (members.map fun m => ⟨m.before, m.spelling, pieces m, m.after,
      ⟨m.item.before, m.item.spelling, m.item.after⟩, string m⟩) (by simpa using some) room
      (List.forall_mem_map.mpr each)
    rw [List.map_map] at json
    exact json

/-- From a state on, characters are not read, whatever the offset of the first one. -/
def Fails (d : Dialect) (s : State) (cs : List Char) : Prop :=
  ∀ offset stop, ∃ f, run d stop s (lexFrom d offset 0 cs) = .error f

/-- Characters are not read where a value may come, inside so many lists and tables. -/
def Refuses (d : Dialect) (depth : Nat) (cs : List Char) : Prop :=
  ∀ frames phase rest, frames.length = depth → ExpectsValue d frames phase → EndsNumber rest →
    Fails d ⟨frames, phase⟩ (cs ++ rest)

section Fails

variable {d : Dialect} {s next : State} {cs rest : List Char}

/-- Reading stops behind what is read. -/
theorem Reads.fails (reads : Reads d s cs rest next) (fails : Fails d next rest) :
    Fails d s (cs ++ rest) := by
  intro offset stop
  obtain ⟨later, reached⟩ := reads offset stop
  rw [reached]
  exact fails later stop

/-- A token that is not in its place ends the reading. -/
theorem Fails.token (c : Char) (rest : List Char) (gap : isGap c = false)
    (refused : ∀ offset, ∃ token length f, readToken d offset c rest = (token, length) ∧
      step d s ⟨offset, token⟩ = .error f) : Fails d s (c :: rest) := by
  intro offset stop
  obtain ⟨token, length, f, read, stopped⟩ := refused offset
  refine ⟨f, ?_⟩
  simp only [lexFrom, gap, read, Bool.false_eq_true, if_false, run, stopped]

/-- A string that is not read ends the reading. -/
theorem Fails.text {key : List Char} {ps : List Piece} (strict : d.allowsLoneSurrogates = false)
    (string : IsString key ps) (unspelled : ¬ ∃ text, SpellsText key text) (rest : List Char)
    (stops : ∀ offset f, step d s ⟨offset, .unreadable f⟩ = .error f) :
    Fails d s ('"' :: (key ++ ['"']) ++ rest) := by
  refine .token '"' _ rfl ?_
  intro offset
  have read := readText_of_not_spelled strict string unspelled offset rest
  refine ⟨.unreadable ⟨.loneSurrogate, offset⟩, 1, _, ?_, stops offset _⟩
  simpa [readToken] using read

end Fails

section Refuses

variable {d : Dialect} {frames : List Frame} {phase : Phase}

theorem step_unreadable_of_expectsValue (expects : ExpectsValue d frames phase) (offset : Nat)
    (f : Fault) : step d ⟨frames, phase⟩ ⟨offset, .unreadable f⟩ = .error f :=
  step_of_expectsValue offset expects _ (by simp)

theorem step_unreadable_of_expectsKey (expects : ExpectsKey d frames phase) (offset : Nat)
    (f : Fault) : step d ⟨frames, phase⟩ ⟨offset, .unreadable f⟩ = .error f := by
  rcases expects with rfl | ⟨rfl, some, room⟩
  · rfl
  · unfold step
    dsimp only
    rw [checkDepth_of_hasRoom offset room]
    rfl

/-- A number with too many digits is refused. -/
theorem refuses_number (n : Number) (long : d.findsLong n.isFloat n.whole.length = true)
    (depth : Nat) : Refuses d depth n.chars := by
  intro frames phase rest _ expects ends
  obtain ⟨c, others, spelled, gap, noMark, -⟩ := n.head_chars
  have word := readWord?_chars n rest
  have number := readNumber?_spelled ends d n
  rw [long, if_pos rfl, spelled] at number
  rw [spelled] at word
  rw [spelled, List.cons_append]
  refine .token c _ gap fun offset => ?_
  refine ⟨.longNumber n.whole.length, (c :: others).length, _, ?_,
    step_of_expectsValue offset expects _ (by simp)⟩
  rw [readToken_of_not_mark d offset c _ noMark, ← List.cons_append, word, number]
  rfl

/-- A refused part is refused behind the blanks before it. -/
theorem Refuses.part {p : Part} (refuses : Refuses d frames.length p.spelling)
    (expects : ExpectsValue d frames phase) {rest : List Char} (ends : EndsNumber rest) :
    Fails d ⟨frames, phase⟩ (p.chars ++ rest) := by
  have here := refuses frames phase (p.after.1 ++ rest) rfl expects (p.after.endsNumber ends)
  have whole := (Reads.gaps p.before.1 p.before.2).fails here
  simpa [Part.chars] using whole

/-- What stands behind a part of a list or table ends a number. -/
theorem endsNumber_separated (cs : List Char) (others : List (List Char)) (close : Char)
    (rest : List Char) (mark : isDigit close = false ∧ close ≠ '.' ∧ close ≠ 'e' ∧ close ≠ 'E') :
    ∃ more, separated (cs :: others) ++ close :: rest = cs ++ more ∧ EndsNumber more ∧
      (others ≠ [] → more = ',' :: (separated others ++ close :: rest)) := by
  cases others with
  | nil => exact ⟨close :: rest, rfl, .cons _ _ mark, fun none => absurd rfl none⟩
  | cons next others =>
    exact ⟨_, by rw [separated, List.append_assoc, List.cons_append], .cons _ _ (by decide),
      fun _ => rfl⟩

end Refuses

section Lists

variable {d : Dialect} {depth : Nat}

/-- A part with its value is an item. -/
def Part.item (p : Part) (v : Value) : Item := ⟨p.before, p.spelling, p.after, v⟩

theorem Part.chars_item (p : Part) (v : Value) : (p.item v).chars = p.chars := rfl

/-- Parts that spell values make a list of these. -/
theorem spells_parts (parts : List Part) (some : parts ≠ []) (room : d.HasRoom (depth + 1))
    (value : Part → Value) (each : ∀ p ∈ parts, Spells d (depth + 1) p.spelling (value p)) :
    Spells d depth ('[' :: (separated (parts.map Part.chars) ++ [']']))
      (.list (parts.map value)) := by
  have spells := Spells.list (parts.map fun p => p.item (value p)) (by simpa using some) room
    (List.forall_mem_map.mpr each)
  simp only [List.map_map, Function.comp_def, Part.chars_item] at spells
  exact spells

/-- A list is read up to the first part that is refused. -/
theorem fails_parts (parts : List Part)
    (each : ∀ p ∈ parts, (∃ v, Spells d (depth + 1) p.spelling v) ∨
      Refuses d (depth + 1) p.spelling)
    (refused : ∃ p ∈ parts, Refuses d (depth + 1) p.spelling) (frames : List Frame)
    (inside : frames.length = depth) (done : List Value) (phase : Phase) (rest : List Char)
    (expects : ExpectsValue d (.list done :: frames) phase) :
    Fails d ⟨.list done :: frames, phase⟩ (separated (parts.map Part.chars) ++ ']' :: rest) := by
  induction parts generalizing done phase with
  | nil => simp at refused
  | cons p others ih =>
    obtain ⟨first, later⟩ := List.forall_mem_cons.mp each
    obtain ⟨more, shape, ends, behind⟩ := endsNumber_separated p.chars (others.map Part.chars) ']'
      rest (by decide)
    rw [List.map_cons, shape]
    subst inside
    rcases first with ⟨v, spells⟩ | refuses
    · obtain ⟨q, member, refuses⟩ := refused
      rcases List.mem_cons.mp member with rfl | among
      · exact refuses.part expects ends
      · have some : others.map Part.chars ≠ [] := by
          simpa using List.ne_nil_of_mem among
        rw [behind some] at ends ⊢
        have read := reads_item (p.item v) (.list done :: frames) phase _
          (reads_of_spells spells) expects ends
        have comma : Reads d (State.deliver v (.list done :: frames)) [',']
            (separated (others.map Part.chars) ++ ']' :: rest)
            ⟨.list (v :: done) :: frames, .value⟩ :=
          .mark ',' .comma rfl (fun _ _ => rfl) rfl (fun _ => rfl)
        exact read.fails (comma.fails
          (ih later ⟨q, among, refuses⟩ (v :: done) .value (.inl rfl)))
    · exact refuses.part expects ends

/-- A list with a refused part is refused. -/
theorem refuses_parts (parts : List Part) (room : d.HasRoom (depth + 1))
    (each : ∀ p ∈ parts, (∃ v, Spells d (depth + 1) p.spelling v) ∨
      Refuses d (depth + 1) p.spelling)
    (refused : ∃ p ∈ parts, Refuses d (depth + 1) p.spelling) :
    Refuses d depth ('[' :: (separated (parts.map Part.chars) ++ [']'])) := by
  intro frames phase rest inside expects _
  have opened := reads_openList expects (fun _ => inside ▸ room)
    (separated (parts.map Part.chars) ++ ']' :: rest)
  have stopped := fails_parts parts each refused frames inside [] .firstItem rest
    (.inr ⟨rfl, by simp, by simpa [inside] using room⟩)
  simpa using opened.fails stopped

end Lists

section Tables

variable {d : Dialect} {depth : Nat}

/-- The key and the value of an entry are spelled. -/
def Pair.IsSpelled (d : Dialect) (depth : Nat) (p : Pair) : Prop :=
  (∃ text, SpellsText p.key text) ∧ ∃ v, Spells d depth p.part.spelling v

/-- The entry that is spelled. -/
theorem Pair.IsSpelled.exists_member {p : Pair} (spelled : p.IsSpelled d depth) :
    ∃ m : Member, m.chars = p.chars ∧ Spells d depth m.item.spelling m.item.value := by
  obtain ⟨⟨text, key⟩, v, value⟩ := spelled
  exact ⟨⟨p.before, p.key, String.ofList text, p.after, p.part.item v,
    by rwa [String.toList_ofList]⟩, rfl, value⟩

theorem exists_members (pairs : List Pair) (each : ∀ p ∈ pairs, p.IsSpelled d depth) :
    ∃ members : List Member, members.map Member.chars = pairs.map Pair.chars ∧
      ∀ m ∈ members, Spells d depth m.item.spelling m.item.value := by
  induction pairs with
  | nil => exact ⟨[], rfl, by simp⟩
  | cons p others ih =>
    obtain ⟨first, later⟩ := List.forall_mem_cons.mp each
    obtain ⟨m, chars, spells⟩ := first.exists_member
    obtain ⟨members, same, spelled⟩ := ih later
    refine ⟨m :: members, ?_, List.forall_mem_cons.mpr ⟨spells, spelled⟩⟩
    rw [List.map_cons, List.map_cons, same, chars]

variable (strict : d.allowsLoneSurrogates = false)

include strict

/-- An entry that is not spelled ends the reading, at its key or at its value. -/
theorem fails_pair (p : Pair) (frames : List Frame) (inside : frames.length = depth)
    (value : (∃ v, Spells d (depth + 1) p.part.spelling v) ∨
      Refuses d (depth + 1) p.part.spelling)
    (unspelled : ¬ p.IsSpelled d (depth + 1)) (done : Table) (last : String) (phase : Phase)
    (rest : List Char) (expects : ExpectsKey d (.table done last :: frames) phase)
    (ends : EndsNumber rest) : Fails d ⟨.table done last :: frames, phase⟩ (p.chars ++ rest) := by
  have shape : p.chars ++ rest = p.before.1 ++ ('"' :: (p.key ++ ['"']) ++
      (p.after.1 ++ ([':'] ++ (p.part.chars ++ rest)))) := by
    simp [Pair.chars]
  rw [shape]
  apply (Reads.gaps _ p.before.2).fails
  by_cases named : ∃ text, SpellsText p.key text
  · obtain ⟨text, key⟩ := named
    have refuses : Refuses d (depth + 1) p.part.spelling :=
      value.resolve_left fun spelled => unspelled ⟨⟨text, key⟩, spelled⟩
    have read (rest : List Char) : Reads d ⟨.table done last :: frames, phase⟩
        ('"' :: (p.key ++ ['"'])) rest ⟨.table done (String.ofList text) :: frames, .colon⟩ :=
      .text key fun offset => step_of_expectsKey offset expects (String.ofList text)
    have parted (rest : List Char) :
        Reads d ⟨.table done (String.ofList text) :: frames, .colon⟩ [':'] rest
          ⟨.table done (String.ofList text) :: frames, .value⟩ :=
      .mark ':' .colon rfl (fun _ _ => rfl) rfl (fun _ => rfl)
    subst inside
    have stopped : Fails d ⟨.table done (String.ofList text) :: frames, .value⟩
        (p.part.chars ++ rest) := refuses.part (.inl rfl) ends
    exact (read _).fails ((Reads.gaps _ p.after.2).fails ((parted _).fails stopped))
  · exact .text strict p.string named _ (step_unreadable_of_expectsKey expects)

/-- A table is read up to the first entry that is not spelled. -/
theorem fails_pairs (pairs : List Pair)
    (each : ∀ p ∈ pairs, (∃ v, Spells d (depth + 1) p.part.spelling v) ∨
      Refuses d (depth + 1) p.part.spelling)
    (unspelled : ¬ ∀ p ∈ pairs, p.IsSpelled d (depth + 1)) (frames : List Frame)
    (inside : frames.length = depth) (done : Table) (last : String) (phase : Phase)
    (rest : List Char) (expects : ExpectsKey d (.table done last :: frames) phase) :
    Fails d ⟨.table done last :: frames, phase⟩
      (separated (pairs.map Pair.chars) ++ '\x7d' :: rest) := by
  induction pairs generalizing done last phase with
  | nil => exact absurd (by simp) unspelled
  | cons p others ih =>
    obtain ⟨first, later⟩ := List.forall_mem_cons.mp each
    obtain ⟨more, shape, ends, behind⟩ := endsNumber_separated p.chars (others.map Pair.chars)
      '\x7d' rest (by decide)
    rw [List.map_cons, shape]
    by_cases here : p.IsSpelled d (depth + 1)
    · have unspelledLater : ¬ ∀ p ∈ others, p.IsSpelled d (depth + 1) :=
        fun all => unspelled (List.forall_mem_cons.mpr ⟨here, all⟩)
      have some : others.map Pair.chars ≠ [] := by
        intro none
        rw [List.map_eq_nil_iff.mp none] at unspelledLater
        exact unspelledLater (by simp)
      rw [behind some] at ends ⊢
      obtain ⟨m, chars, spells⟩ := here.exists_member
      subst inside
      have read := reads_member m frames done last phase _ (reads_of_spells spells) expects ends
      have comma : Reads d
          ⟨.table (Entries.insert m.key m.item.value done) m.key :: frames, .separator⟩ [',']
          (separated (others.map Pair.chars) ++ '\x7d' :: rest)
          ⟨.table (Entries.insert m.key m.item.value done) m.key :: frames, .key⟩ :=
        .mark ',' .comma rfl (fun _ _ => rfl) rfl (fun _ => rfl)
      rw [← chars]
      exact read.fails (comma.fails (ih later unspelledLater _ m.key .key (.inl rfl)))
    · exact fails_pair strict p frames inside first here done last phase more expects ends

/-- JSON by its form spells a value, or is refused wherever it stands. -/
theorem IsJson.spells_or_refuses {cs : List Char} (json : IsJson d depth cs) :
    (∃ v, Spells d depth cs v) ∨ Refuses d depth cs := by
  induction json with
  | word named => exact .inl ⟨_, .word named⟩
  | @number depth n =>
    cases long : d.findsLong n.isFloat n.whole.length with
    | true => exact .inr (refuses_number n long depth)
    | false => exact .inl ⟨_, .number n long⟩
  | @text _ key ps string =>
    by_cases named : ∃ text, SpellsText key text
    · obtain ⟨text, spells⟩ := named
      exact .inl ⟨_, .text spells⟩
    · refine .inr ?_
      intro frames phase rest _ expects _
      exact .text strict string named rest (step_unreadable_of_expectsValue expects)
  | emptyList gaps room => exact .inl ⟨_, .emptyList gaps room⟩
  | @list depth parts some room _ each =>
    by_cases all : ∀ p ∈ parts, ∃ v, Spells d (depth + 1) p.spelling v
    · choose! value spelled using all
      exact .inl ⟨_, spells_parts parts some room value spelled⟩
    · push Not at all
      obtain ⟨p, member, unspelled⟩ := all
      have refuses := (each p member).resolve_left fun ⟨v, spells⟩ => unspelled v spells
      exact .inr (refuses_parts parts room each ⟨p, member, refuses⟩)
  | emptyTable gaps room => exact .inl ⟨_, .emptyTable gaps room⟩
  | @table depth pairs some room _ each =>
    by_cases all : ∀ p ∈ pairs, p.IsSpelled d (depth + 1)
    · obtain ⟨members, same, spelled⟩ := exists_members pairs all
      have filled : members ≠ [] := by
        intro none
        rw [none] at same
        exact some (List.map_eq_nil_iff.mp same.symm)
      rw [← same]
      exact .inl ⟨_, .table members filled room spelled⟩
    · refine .inr ?_
      intro frames phase rest inside expects _
      have opened := reads_openTable expects (fun _ => inside ▸ room)
        (separated (pairs.map Pair.chars) ++ '\x7d' :: rest)
      have stopped := fails_pairs strict pairs each all frames inside [] "" .firstKey rest
        (.inr ⟨rfl, by simp, by simpa [inside] using room⟩)
      simpa using opened.fails stopped

end Tables

/-- What is refused is not read as a text of its own, either. -/
theorem Refuses.readChars_eq_error {d : Dialect} {cs : List Char} (refuses : Refuses d 0 cs)
    (noMark : cs.head? ≠ some '\ufeff') : ∃ f, readChars d cs = .error f := by
  rw [readChars, if_neg noMark, lex]
  have fails := refuses [] .value [] rfl (.inl rfl) .nil
  rw [List.append_nil] at fails
  exact fails 0 cs.length

end LintRun.Json
