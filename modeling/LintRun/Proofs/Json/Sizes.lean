import LintRun.Json.Reader
import LintRun.Proofs.Json.Integers

/-!
# What is read is within limits

A property of values that holds of every token, and is kept where lists and tables are built, holds
of what is read: one step keeps it for all values read so far (`step_all`), and so does a run
(`run_all`). Numbers with too many digits are tokens of their own, so no integer of a value that is
read has more digits than its dialect allows (`takesAll_of_readChars`).
-/
namespace LintRun

inductive Value.Holds (n : Int) : Value → Prop where
  | int : Holds n (.int n)
  | item (items : List Value) (v : Value) (member : v ∈ items) (inside : Holds n v) :
    Holds n (.list items)
  | entry (entries : Table) (e : String × Value) (member : e ∈ entries) (inside : Holds n e.2) :
    Holds n (.table entries)

namespace Json

open LintRun.Decimal (isDigit natOfDigits natOfDigits_lt length_toDigits_le)

/-- A property of values that texts have, and lists and tables if their parts do. -/
structure IsBuilt (P : Value → Prop) : Prop where
  text : ∀ s, P (.text s)
  list : ∀ items, (∀ v ∈ items, P v) → P (.list items)
  table : ∀ entries : Table, (∀ e ∈ entries, P e.2) → P (.table entries)

/-- All complete values of a frame have a property. -/
def Frame.All (P : Value → Prop) : Frame → Prop
  | .list done => ∀ v ∈ done, P v
  | .table done _ => ∀ e ∈ done, P e.2

/-- All complete values of a state have a property. -/
structure State.All (P : Value → Prop) (s : State) : Prop where
  frames : ∀ frame ∈ s.frames, frame.All P
  finished : ∀ v, s.phase = .finished v → P v

/-- A token that stands for a value stands for one with a property. -/
def Token.All (P : Value → Prop) (token : Token) : Prop := ∀ v, token = .scalar v → P v

theorem mem_insert (key : String) (v : Value) (done : Table) :
    ∀ e ∈ Entries.insert key v done, e = (key, v) ∨ e ∈ done := by
  induction done with
  | nil => simp [Entries.insert]
  | cons first done ih =>
    intro e member
    by_cases same : first.1 = key
    · simp only [Entries.insert, if_pos same, List.mem_cons] at member
      exact member.imp id (.tail _)
    · simp only [Entries.insert, if_neg same, List.mem_cons] at member
      rcases member with rfl | later
      · exact .inr (by simp)
      · exact (ih e later).imp id (.tail _)

section All

variable {P : Value → Prop} {d : Dialect}

theorem State.All.of_frames {frames : List Frame} {phase : Phase}
    (all : ∀ frame ∈ frames, frame.All P) (goesOn : ∀ v, phase ≠ .finished v) :
    State.All P ⟨frames, phase⟩ :=
  ⟨all, fun v same => absurd same (goesOn v)⟩

theorem deliver_all (v : Value) (holds : P v) (frames : List Frame)
    (all : ∀ frame ∈ frames, frame.All P) : (State.deliver v frames).All P := by
  rcases frames with _ | ⟨frame, outer⟩
  · refine ⟨by simp [State.deliver], ?_⟩
    rintro x ⟨⟩
    exact holds
  · obtain ⟨inner, others⟩ := List.forall_mem_cons.mp all
    cases frame with
    | list done =>
      refine .of_frames (List.forall_mem_cons.mpr ⟨?_, others⟩) (by simp)
      exact List.forall_mem_cons.mpr ⟨holds, inner⟩
    | table done key =>
      refine .of_frames (List.forall_mem_cons.mpr ⟨?_, others⟩) (by simp)
      intro e member
      rcases mem_insert key v done e member with rfl | earlier
      · exact holds
      · exact inner e earlier

section Step

variable {frames : List Frame} {l : Lexeme} {next : State}

/-- What comes behind a check of the depth, if the check lets it. -/
theorem of_checkDepth {offset : Nat} {others : List Frame} {after : Except Fault State}
    (stepped : (do checkDepth d offset others; after) = .ok next) : after = .ok next := by
  cases checked : checkDepth d offset others with
  | error f => simp [checked, bind, Except.bind] at stepped
  | ok _ => simpa [checked, bind, Except.bind] using stepped

theorem openFrame_all (offset : Nat) (frame : Frame) (phase : Phase)
    (all : ∀ frame ∈ frames, frame.All P) (empty : frame.All P)
    (goesOn : ∀ v, phase ≠ .finished v)
    (opened : openFrame d offset frames frame phase = .ok next) : next.All P := by
  have whole : (.ok ⟨frame :: frames, phase⟩ : Except Fault State) = .ok next := by
    unfold openFrame at opened
    cases counts : d.countsEmpty with
    | false =>
      rw [counts] at opened
      exact opened
    | true =>
      rw [counts] at opened
      exact of_checkDepth opened
  cases whole
  exact .of_frames (List.forall_mem_cons.mpr ⟨empty, all⟩) goesOn

theorem stepValue_all (built : IsBuilt P) (all : ∀ frame ∈ frames, frame.All P)
    (token : l.token.All P) (stepped : stepValue d frames l = .ok next) : next.All P := by
  unfold stepValue at stepped
  split at stepped
  · next v same =>
    cases stepped
    exact deliver_all v (token v same) frames all
  · cases stepped
  · next s _ =>
    cases stepped
    exact deliver_all _ (built.text s) frames all
  · exact openFrame_all _ _ _ all (by simp [Frame.All]) (by simp) stepped
  · exact openFrame_all _ _ _ all (by simp [Frame.All]) (by simp) stepped
  · cases stepped
  · cases stepped

theorem setKey_all (key : String) (all : ∀ frame ∈ frames, frame.All P) :
    (State.setKey key frames).All P := by
  unfold State.setKey
  split
  · next done last outer =>
    obtain ⟨inner, others⟩ := List.forall_mem_cons.mp all
    exact .of_frames (List.forall_mem_cons.mpr ⟨inner, others⟩) (by simp)
  · exact .of_frames all (by simp)

theorem stepKey_all (all : ∀ frame ∈ frames, frame.All P)
    (stepped : stepKey frames l = .ok next) : next.All P := by
  unfold stepKey at stepped
  split at stepped
  · cases stepped
    exact setKey_all _ all
  · cases stepped
  · cases stepped

theorem stepSeparator_all (built : IsBuilt P) (all : ∀ frame ∈ frames, frame.All P)
    (stepped : stepSeparator frames l = .ok next) : next.All P := by
  unfold stepSeparator at stepped
  split at stepped
  · cases stepped
    exact .of_frames all (by simp)
  · cases stepped
    exact .of_frames all (by simp)
  · next done outer _ =>
    cases stepped
    obtain ⟨inner, others⟩ := List.forall_mem_cons.mp all
    refine deliver_all _ (built.list _ ?_) outer others
    simpa [Frame.All] using inner
  · next done key outer _ =>
    cases stepped
    obtain ⟨inner, others⟩ := List.forall_mem_cons.mp all
    exact deliver_all _ (built.table done inner) outer others
  · cases stepped

/-- One token keeps the property for all values read so far. -/
theorem step_all (built : IsBuilt P) (s : State) (all : s.All P) (token : l.token.All P)
    (stepped : step d s l = .ok next) : next.All P := by
  have outer (frame : Frame) (outer : List Frame) (same : s.frames = frame :: outer) :
      ∀ frame ∈ outer, frame.All P := fun x member => all.frames x (by simp [same, member])
  unfold step at stepped
  split at stepped
  · exact stepValue_all built all.frames token stepped
  -- Behind an opening bracket the list may end, and else the bracket has counted as a level.
  · split at stepped
    · next frame others _ same =>
      cases stepped
      exact deliver_all _ (built.list [] (by simp)) others (outer frame others same)
    · exact stepValue_all built all.frames token (of_checkDepth stepped)
  · split at stepped
    · next frame others _ same =>
      cases stepped
      exact deliver_all _ (built.table [] (by simp)) others (outer frame others same)
    · exact stepKey_all all.frames (of_checkDepth stepped)
  · exact stepKey_all all.frames stepped
  · split at stepped
    · cases stepped
      exact .of_frames all.frames (by simp)
    · cases stepped
  · exact stepSeparator_all built all.frames stepped
  · cases stepped

end Step

/-- A whole run keeps the property, up to the value that it ends with. -/
theorem run_all (built : IsBuilt P) (stop : Nat) (ls : List Lexeme)
    (tokens : ∀ l ∈ ls, l.token.All P) (s : State) (all : s.All P) (v : Value)
    (ran : run d stop s ls = .ok v) : P v := by
  induction ls generalizing s with
  | nil =>
    cases phase : s.phase with
    | finished x =>
      simp only [run, phase, Phase.atEnd, Except.ok.injEq] at ran
      exact ran ▸ all.finished x phase
    | _ => simp [run, phase, Phase.atEnd] at ran
  | cons l ls ih =>
    obtain ⟨first, others⟩ := List.forall_mem_cons.mp tokens
    unfold run at ran
    split at ran
    · next next stepped => exact ih others next (step_all built s all first stepped) ran
    · cases ran

end All

/-- All integers in a value have no more digits than are allowed. -/
def Dialect.TakesAll (d : Dialect) (v : Value) : Prop := ∀ n, v.Holds n → d.Takes n

theorem Dialect.isBuilt_takesAll (d : Dialect) : IsBuilt d.TakesAll where
  text s n holds := by cases holds
  list items all n holds := by
    cases holds with
    | item _ v member inside => exact all v member n inside
  table entries all n holds := by
    cases holds with
    | entry _ e member inside => exact all e member n inside

section Tokens

variable (d : Dialect)

/-- Every token is read somewhere in the text. -/
theorem exists_of_mem_lexFrom (cs : List Char) (offset skip : Nat) :
    ∀ l ∈ lexFrom d offset skip cs, ∃ start c rest, l.token = (readToken d start c rest).1 := by
  induction cs generalizing offset skip with
  | nil => simp [lexFrom]
  | cons c cs ih =>
    cases skip with
    | succ skip => exact ih (offset + 1) skip
    | zero =>
      intro l member
      unfold lexFrom at member
      split at member
      · exact ih _ _ l member
      · rcases found : readToken d offset c cs with ⟨token, length⟩
        rw [found] at member
        rcases List.mem_cons.mp member with rfl | later
        · exact ⟨offset, c, cs, by rw [found]⟩
        · split at later
          · cases later
          · exact ih _ _ l later

/-- No word stands for an integer. -/
theorem takesAll_of_readWord? (cs : List Char) (v : Value) (length : Nat)
    (read : readWord? cs = some (.scalar v, length)) : d.TakesAll v := by
  obtain ⟨⟨w, x⟩, member, found⟩ := List.exists_of_findSome?_eq_some read
  have value : x = v := by
    dsimp only at found
    split at found
    · cases found
      rfl
    · cases found
  intro n holds
  cases holds <;> simp [words, value] at member

theorem isDigit_of_mem_wholeDigits (cs : List Char) : ∀ c ∈ wholeDigits cs, isDigit c = true := by
  intro c member
  unfold wholeDigits at member
  split at member
  · obtain rfl := List.mem_singleton.mp member
    rfl
  · exact List.all_eq_true.mp List.all_takeWhile c member

/-- An integer that is read has no more digits than are allowed. -/
theorem takesAll_of_readNumber? (cs : List Char) (v : Value) (length : Nat)
    (read : readNumber? d cs = some (.scalar v, length)) : d.TakesAll v := by
  unfold readNumber? at read
  extract_lets negative body sign whole fraction point size at read
  by_cases empty : whole.isEmpty = true
  · simp [empty] at read
  generalize exponentPart (body.drop (whole.length + point)) = power at read
  rw [if_neg empty] at read
  dsimp only at read
  generalize (point != 0 || power.2 != 0) = isFloat at read
  cases long : d.findsLong isFloat whole.length with
  | true => simp [long] at read
  | false =>
    intro n holds
    cases isFloat with
    | true =>
      simp only [long, Bool.false_eq_true, if_false, if_true, Option.some.injEq, Prod.mk.injEq,
        Token.scalar.injEq] at read
      obtain ⟨rfl, -⟩ := read
      cases holds
    | false =>
      simp only [long, Bool.false_eq_true, if_false, Option.some.injEq, Prod.mk.injEq,
        Token.scalar.injEq] at read
      obtain ⟨rfl, -⟩ := read
      cases holds
      have spelled : (if negative = true then -size else size).natAbs = natOfDigits whole := by
        split <;> simp [size]
      intro most limit
      have few : whole.length ≤ most := by simpa [Dialect.findsLong, limit] using long
      have some : 0 < whole.length := by simpa [List.length_pos_iff] using empty
      refine length_toDigits_le _ most (by omega) ?_
      rw [spelled]
      exact Nat.lt_of_lt_of_le (natOfDigits_lt whole (isDigit_of_mem_wholeDigits body))
        (Nat.pow_le_pow_right (by decide) few)

/-- An integer token has no more digits than are allowed. -/
theorem readToken_takesAll (offset : Nat) (c : Char) (rest : List Char) :
    (readToken d offset c rest).1.All d.TakesAll := by
  intro v read
  unfold readToken at read
  split at read
  -- Marks and strings stand for no scalar.
  all_goals try cases read
  · unfold readText at read
    split at read
    · cases read
    · split at read <;> cases read
  · cases word : readWord? (c :: rest) with
    | some found =>
      obtain ⟨token, length⟩ := found
      rw [word] at read
      obtain rfl : token = .scalar v := read
      exact takesAll_of_readWord? d _ v length word
    | none =>
      cases number : readNumber? d (c :: rest) with
      | none => simp [word, number] at read
      | some found =>
        obtain ⟨token, length⟩ := found
        rw [word, number] at read
        obtain rfl : token = .scalar v := read
        exact takesAll_of_readNumber? d _ v length number

end Tokens

/-- All integers in a value that is read have no more digits than are allowed. -/
theorem takesAll_of_readChars (d : Dialect) (cs : List Char) (v : Value)
    (read : readChars d cs = .ok v) : d.TakesAll v := by
  unfold readChars at read
  split at read
  · cases read
  · refine run_all d.isBuilt_takesAll _ _ ?_ _ (.of_frames (by simp) (by simp)) v read
    intro l member
    obtain ⟨start, c, rest, token⟩ := exists_of_mem_lexFrom d cs 0 0 l member
    rw [token]
    exact readToken_takesAll d start c rest

end Json

end LintRun
