import LintRun.Json.Reader
import LintRun.Proofs.Json.Numbers
import LintRun.Proofs.Json.Strings

/-!
# JSON as it is spelled

Which characters spell which value is said without the reader (`Spells`): words, numbers and
strings, and lists and tables of values with blanks around each, nested no deeper than there is room
for. What spells a value is read as that value (`read_of_isTextOf`): from a state that expects a
value, its characters lead to the state in which it has been delivered, whatever follows
(`reads_of_spells`). The induction is on the spelling; the frames around it stay as they are. Of two
entries under one key the later one counts.
-/
namespace LintRun.Json

open LintRun.Decimal (isDigit)

/-- A list or table may be nested so deep. -/
def Dialect.HasRoom (d : Dialect) (depth : Nat) : Prop :=
  ∀ most, d.maxDepth = some most → depth ≤ most

theorem Dialect.HasRoom.mono {d : Dialect} {depth less : Nat} (room : d.HasRoom depth)
    (bound : less ≤ depth) : d.HasRoom less :=
  fun most limit => Nat.le_trans bound (room most limit)

abbrev Gaps := { cs : List Char // ∀ c ∈ cs, isGap c = true }

def Gaps.none : Gaps := ⟨[], by simp⟩

/-- An item of a list: a spelling of a value with blanks around it. -/
structure Item where
  before : Gaps
  spelling : List Char
  after : Gaps
  value : Value

def Item.chars (item : Item) : List Char := item.before.1 ++ (item.spelling ++ item.after.1)

/-- An entry of a table: a key between quotes with blanks around it, a colon, and an item. -/
structure Member where
  before : Gaps
  spelling : List Char
  key : String
  after : Gaps
  item : Item
  spells : SpellsText spelling key.toList

namespace Member

variable (m : Member)

def chars : List Char :=
  m.before.1 ++ ('"' :: (m.spelling ++ ['"']) ++ (m.after.1 ++ (':' :: m.item.chars)))

def entry : String × Value := (m.key, m.item.value)

end Member

/-- Characters with commas between them. -/
def separated : List (List Char) → List Char
  | [] => []
  | [cs] => cs
  | cs :: ds :: rest => cs ++ ',' :: separated (ds :: rest)

/-- Characters spell a value that stands inside so many lists and tables. -/
inductive Spells (d : Dialect) : Nat → List Char → Value → Prop where
  | word {depth : Nat} {w : String} {v : Value} (named : (w, v) ∈ words) :
    Spells d depth w.toList v
  | number {depth : Nat} (n : Number) (few : d.findsLong n.isFloat n.whole.length = false) :
    Spells d depth n.chars n.value
  | text {depth : Nat} {cs s : List Char} (spells : SpellsText cs s) :
    Spells d depth ('"' :: (cs ++ ['"'])) (.text (String.ofList s))
  | emptyList {depth : Nat} (gaps : Gaps) (room : d.countsEmpty = true → d.HasRoom (depth + 1)) :
    Spells d depth ('[' :: (gaps.1 ++ [']'])) (.list [])
  | list {depth : Nat} (items : List Item) (some : items ≠ []) (room : d.HasRoom (depth + 1))
    (each : ∀ item ∈ items, Spells d (depth + 1) item.spelling item.value) :
    Spells d depth ('[' :: (separated (items.map Item.chars) ++ [']']))
      (.list (items.map Item.value))
  | emptyTable {depth : Nat} (gaps : Gaps) (room : d.countsEmpty = true → d.HasRoom (depth + 1)) :
    Spells d depth ('\x7b' :: (gaps.1 ++ ['\x7d'])) (.table [])
  | table {depth : Nat} (members : List Member) (some : members ≠ [])
    (room : d.HasRoom (depth + 1))
    (each : ∀ m ∈ members, Spells d (depth + 1) m.item.spelling m.item.value) :
    Spells d depth ('\x7b' :: (separated (members.map Member.chars) ++ ['\x7d']))
      (.table (Entries.ofList (members.map Member.entry)))

/-- A text spells a value, with blanks around it. -/
def IsTextOf (d : Dialect) (s : String) (v : Value) : Prop :=
  ∃ (before after : Gaps) (cs : List Char), Spells d 0 cs v ∧
    s.toList = before.1 ++ (cs ++ after.1)

section Lex

variable (d : Dialect) (offset : Nat)

theorem lexFrom_skip (taken rest : List Char) :
    lexFrom d offset taken.length (taken ++ rest) = lexFrom d (offset + taken.length) 0 rest := by
  induction taken generalizing offset with
  | nil => rfl
  | cons c taken ih =>
    simp only [List.length_cons, List.cons_append, lexFrom, ih]
    congr 1
    omega

theorem lexFrom_gaps (gaps rest : List Char) (blank : ∀ c ∈ gaps, isGap c = true) :
    lexFrom d offset 0 (gaps ++ rest) = lexFrom d (offset + gaps.length) 0 rest := by
  induction gaps generalizing offset with
  | nil => rfl
  | cons c gaps ih =>
    simp only [List.cons_append, lexFrom, blank c (by simp), if_true, List.length_cons]
    rw [ih _ fun x member => blank x (by simp [member])]
    congr 1
    omega

theorem lexFrom_token (c : Char) (others rest : List Char) (token : Token)
    (gap : isGap c = false)
    (read : readToken d offset c (others ++ rest) = (token, others.length + 1))
    (goesOn : token.isLast = false) :
    lexFrom d offset 0 (c :: others ++ rest) =
      ⟨offset, token⟩ :: lexFrom d (offset + 1 + others.length) 0 rest := by
  simp only [List.cons_append, lexFrom, gap, read, goesOn, Bool.false_eq_true, if_false,
    Nat.add_sub_cancel, lexFrom_skip]

end Lex

theorem readToken_of_not_mark (d : Dialect) (offset : Nat) (c : Char) (rest : List Char)
    (other : c ∉ "[]\x7b\x7d:,\"".toList) :
    readToken d offset c rest =
      ((readWord? (c :: rest)).or (readNumber? d (c :: rest))).getD (.unknown, 1) := by
  unfold readToken
  split
  all_goals first
    | exact absurd (by decide) other
    | rfl

/-- From one state, characters lead to another state if `rest` follows them. -/
def Reads (d : Dialect) (s : State) (cs rest : List Char) (next : State) : Prop :=
  ∀ offset stop, ∃ later,
    run d stop s (lexFrom d offset 0 (cs ++ rest)) = run d stop next (lexFrom d later 0 rest)

section Reads

variable {d : Dialect} {s next last : State} {rest : List Char}

theorem Reads.append {first second : List Char} (front : Reads d s first (second ++ rest) next)
    (back : Reads d next second rest last) : Reads d s (first ++ second) rest last := by
  intro offset stop
  obtain ⟨middle, reached⟩ := front offset stop
  obtain ⟨later, ended⟩ := back middle stop
  exact ⟨later, by rw [List.append_assoc, reached, ended]⟩

theorem Reads.gaps (gaps : List Char) (blank : ∀ c ∈ gaps, isGap c = true) :
    Reads d s gaps rest s :=
  fun offset _ => ⟨offset + gaps.length, by rw [lexFrom_gaps d offset gaps rest blank]⟩

/-- A token leads on by one step. -/
theorem Reads.token (c : Char) (others : List Char) (token : Token) (gap : isGap c = false)
    (read : ∀ offset, readToken d offset c (others ++ rest) = (token, others.length + 1))
    (goesOn : token.isLast = false) (steps : ∀ offset, step d s ⟨offset, token⟩ = .ok next) :
    Reads d s (c :: others) rest next := by
  intro offset stop
  refine ⟨offset + 1 + others.length, ?_⟩
  rw [lexFrom_token d offset c others rest token gap (read offset) goesOn]
  simp only [run, steps]

/-- A mark is a token of one character, whatever follows. -/
theorem Reads.mark (c : Char) (token : Token) (gap : isGap c = false)
    (read : ∀ offset rest, readToken d offset c rest = (token, 1)) (goesOn : token.isLast = false)
    (steps : ∀ offset, step d s ⟨offset, token⟩ = .ok next) : Reads d s [c] rest next :=
  .token c [] token gap (fun offset => read offset rest) goesOn steps

end Reads

/-- A value may come: right away, or as the first item of a list. -/
def ExpectsValue (d : Dialect) (frames : List Frame) (phase : Phase) : Prop :=
  phase = .value ∨ phase = .firstItem ∧ frames ≠ [] ∧ d.HasRoom frames.length

/-- A key may come: right away, or as the first one of a table. -/
def ExpectsKey (d : Dialect) (frames : List Frame) (phase : Phase) : Prop :=
  phase = .key ∨ phase = .firstKey ∧ frames ≠ [] ∧ d.HasRoom frames.length

section Step

variable {d : Dialect} {frames : List Frame} {phase : Phase} (offset : Nat)

theorem checkDepth_of_hasRoom (room : d.HasRoom frames.length) :
    checkDepth d offset frames = .ok () := by
  unfold checkDepth
  split
  · next most frame outer depth =>
    rw [if_neg (by have fits := room most depth; simp at fits ⊢; omega)]
  · rfl

theorem step_of_expectsValue (expects : ExpectsValue d frames phase) (token : Token)
    (opens : token ≠ .closeList) :
    step d ⟨frames, phase⟩ ⟨offset, token⟩ = stepValue d frames ⟨offset, token⟩ := by
  rcases expects with rfl | ⟨rfl, some, room⟩
  · rfl
  · unfold step
    dsimp only
    split
    · exact absurd rfl opens
    · rw [checkDepth_of_hasRoom offset room]
      rfl

theorem step_of_expectsKey (expects : ExpectsKey d frames phase) (key : String) :
    step d ⟨frames, phase⟩ ⟨offset, .text key⟩ = .ok (State.setKey key frames) := by
  rcases expects with rfl | ⟨rfl, some, room⟩
  · rfl
  · unfold step
    dsimp only
    rw [checkDepth_of_hasRoom offset room]
    rfl

/-- A frame is opened if there is room for it, or if it need not count yet. -/
theorem openFrame_of_room (frame : Frame) (opened : Phase)
    (room : d.countsEmpty = true → d.HasRoom (frames.length + 1)) :
    openFrame d offset frames frame opened = .ok ⟨frame :: frames, opened⟩ := by
  unfold openFrame
  cases counts : d.countsEmpty with
  | false => rfl
  | true =>
    have fits : checkDepth d offset (frame :: frames) = .ok () :=
      checkDepth_of_hasRoom offset (room counts)
    rw [if_pos rfl, fits]
    rfl

end Step

/-- The bracket of a list that may be opened. -/
theorem reads_openList {d : Dialect} {frames : List Frame} {phase : Phase}
    (expects : ExpectsValue d frames phase)
    (room : d.countsEmpty = true → d.HasRoom (frames.length + 1)) (rest : List Char) :
    Reads d ⟨frames, phase⟩ ['['] rest ⟨.list [] :: frames, .firstItem⟩ :=
  .mark '[' .openList rfl (fun _ _ => rfl) rfl fun offset => by
    rw [step_of_expectsValue offset expects _ (by simp)]
    exact openFrame_of_room offset _ _ room

/-- The brace of a table that may be opened. -/
theorem reads_openTable {d : Dialect} {frames : List Frame} {phase : Phase}
    (expects : ExpectsValue d frames phase)
    (room : d.countsEmpty = true → d.HasRoom (frames.length + 1)) (rest : List Char) :
    Reads d ⟨frames, phase⟩ ['\x7b'] rest ⟨.table [] "" :: frames, .firstKey⟩ :=
  .mark '\x7b' .openTable rfl (fun _ _ => rfl) rfl fun offset => by
    rw [step_of_expectsValue offset expects _ (by simp)]
    exact openFrame_of_room offset _ _ room

/-- Characters lead from any state that expects a value, inside so many lists and tables, to the
state in which it has been delivered. -/
def Delivers (d : Dialect) (depth : Nat) (cs : List Char) (v : Value) : Prop :=
  ∀ frames phase rest, frames.length = depth → ExpectsValue d frames phase → EndsNumber rest →
    Reads d ⟨frames, phase⟩ cs rest (State.deliver v frames)

theorem Gaps.endsNumber (gaps : Gaps) {rest : List Char} (ends : EndsNumber rest) :
    EndsNumber (gaps.1 ++ rest) := by
  obtain ⟨_ | ⟨c, gaps⟩, blank⟩ := gaps
  · exact ends
  · refine .cons c _ ?_
    have gap := blank c (by simp)
    simp only [isGap, Bool.or_eq_true, beq_iff_eq] at gap
    rcases gap with ((rfl | rfl) | rfl) | rfl <;> decide

section Values

variable {d : Dialect}

/-- An item, with the blanks around it. -/
theorem reads_item (item : Item) (frames : List Frame) (phase : Phase) (rest : List Char)
    (delivers : Delivers d frames.length item.spelling item.value)
    (expects : ExpectsValue d frames phase) (ends : EndsNumber rest) :
    Reads d ⟨frames, phase⟩ item.chars rest (State.deliver item.value frames) := by
  have inner := delivers frames phase (item.after.1 ++ rest) rfl expects
    (item.after.endsNumber ends)
  exact (Reads.gaps _ item.before.2).append (inner.append (.gaps _ item.after.2))

/-- The items of a list and its end. -/
theorem reads_items (frames : List Frame) (rest : List Char) (items : List Item) (some : items ≠ [])
    (each : ∀ item ∈ items, Delivers d (frames.length + 1) item.spelling item.value)
    (done : List Value) (phase : Phase) (expects : ExpectsValue d (.list done :: frames) phase) :
    Reads d ⟨.list done :: frames, phase⟩ (separated (items.map Item.chars) ++ [']']) rest
      (State.deliver (.list (done.reverse ++ items.map Item.value)) frames) := by
  induction items generalizing done phase with
  | nil => exact absurd rfl some
  | cons item others ih =>
    have now (rest : List Char) (ends : EndsNumber rest) :=
      reads_item item (.list done :: frames) phase rest (each item (by simp)) expects ends
    cases others with
    | nil =>
      have closes : Reads d (State.deliver item.value (.list done :: frames)) [']'] rest
          (State.deliver (.list (done.reverse ++ [item.value])) frames) :=
        .mark ']' .closeList rfl (fun _ _ => rfl) rfl (fun _ => by
          simp [State.deliver, step, stepSeparator])
      exact (now _ (.cons _ _ (by decide))).append closes
    | cons next others =>
      have goesOn (rest : List Char) :
          Reads d (State.deliver item.value (.list done :: frames)) [','] rest
            ⟨.list (item.value :: done) :: frames, .value⟩ :=
        .mark ',' .comma rfl (fun _ _ => rfl) rfl (fun _ => rfl)
      have later := ih (by simp) (fun x member => each x (by simp [member])) (item.value :: done)
        .value (.inl rfl)
      have whole := (now _ (.cons ',' _ (by decide))).append ((goesOn _).append later)
      simpa [separated] using whole

/-- A string that is spelled is a token. -/
theorem Reads.text {s next : State} {rest cs text : List Char} (spells : SpellsText cs text)
    (steps : ∀ offset, step d s ⟨offset, .text (String.ofList text)⟩ = .ok next) :
    Reads d s ('"' :: (cs ++ ['"'])) rest next := by
  refine .token '"' _ (.text (String.ofList text)) rfl ?_ rfl steps
  intro offset
  have read := readText_of_spellsText d offset spells rest
  rw [List.append_assoc]
  simpa [readToken] using read

/-- An entry of a table, with the blanks around its parts. -/
theorem reads_member (m : Member) (frames : List Frame) (done : Table) (last : String)
    (phase : Phase) (rest : List Char)
    (delivers : Delivers d (frames.length + 1) m.item.spelling m.item.value)
    (expects : ExpectsKey d (.table done last :: frames) phase) (ends : EndsNumber rest) :
    Reads d ⟨.table done last :: frames, phase⟩ m.chars rest
      ⟨.table (Entries.insert m.key m.item.value done) m.key :: frames, .separator⟩ := by
  have named (rest : List Char) : Reads d ⟨.table done last :: frames, phase⟩
      ('"' :: (m.spelling ++ ['"'])) rest ⟨.table done m.key :: frames, .colon⟩ :=
    .text m.spells fun offset => by
      rw [String.ofList_toList]
      exact step_of_expectsKey offset expects m.key
  have parted (rest : List Char) : Reads d ⟨.table done m.key :: frames, .colon⟩ [':'] rest
      ⟨.table done m.key :: frames, .value⟩ :=
    .mark ':' .colon rfl (fun _ _ => rfl) rfl (fun _ => rfl)
  have valued := reads_item m.item (.table done m.key :: frames) .value rest delivers (.inl rfl)
    ends
  exact (Reads.gaps _ m.before.2).append
    ((named _).append ((Reads.gaps _ m.after.2).append ((parted _).append valued)))

/-- The entries of a table and its end. -/
theorem reads_members (frames : List Frame) (rest : List Char) (members : List Member)
    (some : members ≠ [])
    (each : ∀ m ∈ members, Delivers d (frames.length + 1) m.item.spelling m.item.value)
    (done : Table) (last : String) (phase : Phase)
    (expects : ExpectsKey d (.table done last :: frames) phase) :
    Reads d ⟨.table done last :: frames, phase⟩ (separated (members.map Member.chars) ++ ['\x7d'])
      rest (State.deliver (.table ((members.map Member.entry).foldl
        (fun done e => Entries.insert e.1 e.2 done) done)) frames) := by
  induction members generalizing done last phase with
  | nil => exact absurd rfl some
  | cons m others ih =>
    have now (rest : List Char) (ends : EndsNumber rest) :=
      reads_member m frames done last phase rest (each m (by simp)) expects ends
    cases others with
    | nil =>
      have closes : Reads d
          ⟨.table (Entries.insert m.key m.item.value done) m.key :: frames, .separator⟩ ['\x7d']
          rest (State.deliver (.table (Entries.insert m.key m.item.value done)) frames) :=
        .mark '\x7d' .closeTable rfl (fun _ _ => rfl) rfl (fun _ => rfl)
      exact (now _ (.cons _ _ (by decide))).append closes
    | cons next others =>
      have goesOn (rest : List Char) : Reads d
          ⟨.table (Entries.insert m.key m.item.value done) m.key :: frames, .separator⟩ [','] rest
          ⟨.table (Entries.insert m.key m.item.value done) m.key :: frames, .key⟩ :=
        .mark ',' .comma rfl (fun _ _ => rfl) rfl (fun _ => rfl)
      have later := ih (by simp) (fun x member => each x (by simp [member]))
        (Entries.insert m.key m.item.value done) m.key .key (.inl rfl)
      have whole := (now _ (.cons ',' _ (by decide))).append ((goesOn _).append later)
      simpa [separated, Member.entry] using whole

/-- A scalar that is one token, whatever follows or if it is no part of a number. -/
theorem delivers_scalar (c : Char) (others : List Char) (v : Value) (gap : isGap c = false)
    (read : ∀ offset rest, EndsNumber rest →
      readToken d offset c (others ++ rest) = (.scalar v, others.length + 1)) (depth : Nat) :
    Delivers d depth (c :: others) v := by
  intro frames phase rest _ expects ends
  refine .token c others (.scalar v) gap (fun offset => read offset rest ends) rfl fun offset => ?_
  rw [step_of_expectsValue offset expects _ (by simp)]
  rfl

theorem delivers_word {w : String} {v : Value} (named : (w, v) ∈ words) (depth : Nat) :
    Delivers d depth w.toList v := by
  simp only [words, List.mem_cons, Prod.mk.injEq, List.not_mem_nil, or_false] at named
  rcases named with ⟨rfl, rfl⟩ | ⟨rfl, rfl⟩ | ⟨rfl, rfl⟩ | ⟨rfl, rfl⟩ | ⟨rfl, rfl⟩ | ⟨rfl, rfl⟩
  all_goals exact delivers_scalar _ _ _ rfl (fun _ _ _ => rfl) depth

theorem delivers_number (n : Number) (few : d.findsLong n.isFloat n.whole.length = false)
    (depth : Nat) : Delivers d depth n.chars n.value := by
  obtain ⟨c, others, spelled, gap, noMark, -⟩ := n.head_chars
  rw [spelled]
  refine delivers_scalar c others n.value gap (fun offset rest ends => ?_) depth
  have word := readWord?_chars n rest
  have number := readNumber?_chars ends d n few
  rw [spelled] at word number
  rw [readToken_of_not_mark d offset c _ noMark, ← List.cons_append, word, number]
  rfl

/-- A value that is spelled is read, whatever stands around it. -/
theorem reads_of_spells {depth : Nat} {cs : List Char} {v : Value} (spells : Spells d depth cs v) :
    Delivers d depth cs v := by
  -- Only a number needs to know what follows: all other tokens end by themselves.
  induction spells with
  | word named => exact delivers_word named _
  | number n few => exact delivers_number n few _
  | text spells =>
    intro frames phase rest _ expects _
    refine .text spells fun offset => ?_
    rw [step_of_expectsValue offset expects _ (by simp)]
    rfl
  | emptyList gaps room =>
    rintro frames phase rest rfl expects _
    exact (reads_openList expects room _).append ((Reads.gaps _ gaps.2).append
      (.mark ']' .closeList rfl (fun _ _ => rfl) rfl fun _ => rfl))
  | list items some room _ each =>
    rintro frames phase rest rfl expects _
    exact (reads_openList expects (fun _ => room) _).append
      (reads_items frames rest items some each [] .firstItem (.inr ⟨rfl, by simp, room⟩))
  | emptyTable gaps room =>
    rintro frames phase rest rfl expects _
    exact (reads_openTable expects room _).append ((Reads.gaps _ gaps.2).append
      (.mark '\x7d' .closeTable rfl (fun _ _ => rfl) rfl fun _ => rfl))
  | table members some room _ each =>
    rintro frames phase rest rfl expects _
    exact (reads_openTable expects (fun _ => room) _).append
      (reads_members frames rest members some each [] "" .firstKey (.inr ⟨rfl, by simp, room⟩))

/-- What spells a list starts with its bracket. -/
theorem Spells.exists_list_eq_cons {depth : Nat} {cs : List Char} {vs : List Value}
    (spells : Spells d depth cs (.list vs)) : ∃ others, cs = '[' :: others := by
  generalize same : Value.list vs = v at spells
  cases spells with
  | word named => simp [words, ← same] at named
  | number n =>
    unfold Number.value at same
    split at same <;> cases same
  | emptyList | list => exact ⟨_, rfl⟩
  | text | emptyTable | table => cases same

theorem head?_ne_of_spells {depth : Nat} {cs : List Char} {v : Value} (spells : Spells d depth cs v)
    (rest : List Char) : (cs ++ rest).head? ≠ some '\ufeff' := by
  cases spells with
  | word named =>
    simp only [words, List.mem_cons, Prod.mk.injEq, List.not_mem_nil, or_false] at named
    rcases named with ⟨rfl, -⟩ | ⟨rfl, -⟩ | ⟨rfl, -⟩ | ⟨rfl, -⟩ | ⟨rfl, -⟩ | ⟨rfl, -⟩ <;> simp
  | number n =>
    obtain ⟨c, others, spelled, -, -, noMark⟩ := n.head_chars
    simpa [spelled] using noMark
  | _ => simp

/-- What spells a value is read as that value, with blanks around it. -/
theorem readChars_of_spells (before after : Gaps) {cs : List Char} {v : Value}
    (spells : Spells d 0 cs v) : readChars d (before.1 ++ (cs ++ after.1)) = .ok v := by
  have noMark : (before.1 ++ (cs ++ after.1)).head? ≠ some '\ufeff' := by
    obtain ⟨_ | ⟨c, gaps⟩, blank⟩ := before
    · exact head?_ne_of_spells spells _
    · have gap := blank c (by simp)
      rintro ⟨⟩
      cases gap
  have inner := reads_of_spells spells [] .value (after.1 ++ []) rfl (.inl rfl)
    (after.endsNumber .nil)
  have whole := (Reads.gaps _ before.2).append (inner.append (.gaps _ after.2))
  obtain ⟨later, reached⟩ := whole 0 (before.1 ++ (cs ++ after.1)).length
  rw [List.append_nil] at reached
  rw [readChars, if_neg noMark, lex, reached]
  rfl

theorem read_of_isTextOf {s : String} {v : Value} (spelled : IsTextOf d s v) :
    read d s = .ok v := by
  obtain ⟨before, after, cs, spells, chars⟩ := spelled
  rw [read, chars]
  exact readChars_of_spells before after spells

end Values

end LintRun.Json
