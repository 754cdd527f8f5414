import Mathlib.Data.List.Infix
import Mathlib.Data.List.Pairwise
import LintRun.Proofs.Command.Words

/-!
# Tokens replaced in one pass

A pass reads a text once, from the left, and puts a value in the place of each token that it meets;
what it has put in it does not read. The words of a command are not filled so, but by one pass for
each token. That is the same as long as no pass meets a token that was not in the word, and it is
not if one does, unless a value starts as a token does (`isOnePass`). With a rules directory the
arguments of a command are the words of its template, each filled so (`arguments_of_template`).
-/
namespace LintRun.Command

section Pass

/-- Tokens with what is put in their places. -/
abbrev Substitution := List (List Char × List Char)

/-- A text read once with its tokens replaced; `skip` counts characters of the token read last. -/
def passFrom (table : Substitution) : Nat → List Char → List Char
  | _, [] => []
  | skip + 1, _ :: rest => passFrom table skip rest
  | 0, c :: rest =>
    match table.find? fun e => e.1.isPrefixOf (c :: rest) with
    | some e => e.2 ++ passFrom table (e.1.length - 1) rest
    | none => c :: passFrom table 0 rest

def pass (table : Substitution) (cs : List Char) : List Char := passFrom table 0 cs

def occurrences (token cs : List Char) : Nat := cs.tails.countP (token.isPrefixOf ·)

/-- A token has a mark at its start and nowhere else. -/
structure IsToken (mark : Char) (token : List Char) : Prop where
  first : token.head? = some mark
  only : mark ∉ token.tail

instance (mark : Char) (token : List Char) : Decidable (IsToken mark token) :=
  decidable_of_iff (token.head? = some mark ∧ mark ∉ token.tail)
    ⟨fun ⟨first, only⟩ => ⟨first, only⟩, fun proper => ⟨proper.first, proper.only⟩⟩

/-- Two tokens are told apart wherever they start. -/
def Apart (one two : List Char × List Char) : Prop := ¬ one.1 <+: two.1 ∧ ¬ two.1 <+: one.1

/-- The tokens of a table have the same mark and are told apart. -/
structure IsTable (mark : Char) (table : Substitution) : Prop where
  tokens : ∀ e ∈ table, IsToken mark e.1
  apart : table.Pairwise Apart

variable {mark : Char} {token : List Char}

theorem IsToken.exists_cons (proper : IsToken mark token) :
    ∃ rest, token = mark :: rest ∧ mark ∉ rest := by
  obtain ⟨rest, rfl⟩ := List.head?_eq_some_iff.mp proper.first
  exact ⟨rest, rfl, proper.only⟩

/-- A token starts where its mark is. -/
theorem IsToken.not_prefix (proper : IsToken mark token) {c : Char} (other : c ≠ mark)
    (cs : List Char) : ¬ token <+: c :: cs := by
  obtain ⟨rest, rfl, -⟩ := proper.exists_cons
  intro here
  exact other (List.cons_prefix_cons.mp here).1.symm

instance : Std.Symm Apart := ⟨fun _ _ apart => ⟨apart.2, apart.1⟩⟩

theorem IsTable.single {e : List Char × List Char} (proper : IsToken mark e.1) :
    IsTable mark [e] :=
  ⟨fun _ member => List.mem_singleton.mp member ▸ proper, List.pairwise_singleton ..⟩

section Occurrences

theorem occurrences_cons (c : Char) (cs : List Char) :
    occurrences token (c :: cs) =
      occurrences token cs + if token <+: c :: cs then 1 else 0 := by
  simp only [occurrences, List.tails_cons, List.countP_cons, List.isPrefixOf_iff_prefix]

theorem occurrences_le_append (token front cs : List Char) :
    occurrences token cs ≤ occurrences token (front ++ cs) := by
  induction front with
  | nil => exact Nat.le_refl _
  | cons c more ih =>
    rw [List.cons_append, occurrences_cons]
    omega

/-- No token starts where there is no mark. -/
theorem occurrences_append_of_not_mem (proper : IsToken mark token) {front : List Char}
    (plain : mark ∉ front) (cs : List Char) :
    occurrences token (front ++ cs) = occurrences token cs := by
  induction front with
  | nil => rfl
  | cons c more ih =>
    have other : c ≠ mark := Ne.symm (List.ne_of_not_mem_cons plain)
    rw [List.cons_append, occurrences_cons, if_neg (proper.not_prefix other _), Nat.add_zero,
      ih (List.not_mem_of_not_mem_cons plain)]

theorem occurrences_token (proper : IsToken mark token) (cs : List Char) :
    occurrences token (token ++ cs) = occurrences token cs + 1 := by
  have here : token <+: token ++ cs := List.prefix_append token cs
  obtain ⟨rest, rfl, plain⟩ := proper.exists_cons
  rw [List.cons_append, occurrences_cons, ← List.cons_append, if_pos here,
    occurrences_append_of_not_mem proper plain]

/-- In a token no other one starts. -/
theorem occurrences_other {one two : List Char × List Char} (apart : Apart one two)
    (properOne : IsToken mark one.1) (properTwo : IsToken mark two.1) (cs : List Char) :
    occurrences one.1 (two.1 ++ cs) = occurrences one.1 cs := by
  have absent : ¬ one.1 <+: two.1 ++ cs := by
    intro here
    rcases List.prefix_or_prefix_of_prefix here (List.prefix_append two.1 cs) with first | second
    · exact apart.1 first
    · exact apart.2 second
  obtain ⟨rest, spelled, plain⟩ := properTwo.exists_cons
  rw [spelled, List.cons_append] at absent ⊢
  rw [occurrences_cons, if_neg absent, Nat.add_zero,
    occurrences_append_of_not_mem properOne plain]

end Occurrences

section Steps

variable {table : Substitution}

/-- A character where no token starts stays. -/
theorem pass_plain {c : Char} {cs : List Char} (plain : ∀ e ∈ table, ¬ e.1 <+: c :: cs) :
    pass table (c :: cs) = c :: pass table cs := by
  have none : (table.find? fun e => e.1.isPrefixOf (c :: cs)) = none := by
    refine List.find?_eq_none.mpr ?_
    intro e member
    rw [List.isPrefixOf_iff_prefix]
    exact plain e member
  rw [pass, passFrom, none]
  rfl

/-- The rest of a token is passed over. -/
theorem passFrom_length (front cs : List Char) :
    passFrom table front.length (front ++ cs) = pass table cs := by
  induction front with
  | nil => rfl
  | cons c rest ih => rw [List.length_cons, List.cons_append, passFrom, ih]

/-- A token becomes its value. -/
theorem pass_token (proper : IsTable mark table) {e : List Char × List Char} (member : e ∈ table)
    (cs : List Char) : pass table (e.1 ++ cs) = e.2 ++ pass table cs := by
  have here : e.1 <+: e.1 ++ cs := List.prefix_append e.1 cs
  have only (f : List Char × List Char) (listed : f ∈ table) (found : f.1 <+: e.1 ++ cs) :
      f = e := by
    by_contra other
    have apart := proper.apart.forall listed member other
    rcases List.prefix_or_prefix_of_prefix found here with first | second
    · exact apart.1 first
    · exact apart.2 second
  obtain ⟨rest, spelled, -⟩ := (proper.tokens e member).exists_cons
  have first : (table.find? fun f => f.1.isPrefixOf (e.1 ++ cs)) = some e := by
    cases found : table.find? fun f => f.1.isPrefixOf (e.1 ++ cs) with
    | none =>
      have absent := List.find?_eq_none.mp found e member
      exact absurd (List.isPrefixOf_iff_prefix.mpr here) absent
    | some f =>
      have starts : f.1.isPrefixOf (e.1 ++ cs) := by simpa using List.find?_some found
      rw [only f (List.mem_of_find?_eq_some found) (List.isPrefixOf_iff_prefix.mp starts)]
  rw [spelled, List.cons_append] at first ⊢
  rw [pass, passFrom, first]
  dsimp only
  rw [spelled, List.length_cons, Nat.add_sub_cancel, passFrom_length]

/-- A text is read token by token. -/
theorem tokenwise (proper : IsTable mark table) {motive : List Char → Prop} (nil : motive [])
    (token : ∀ e ∈ table, ∀ cs, motive cs → motive (e.1 ++ cs))
    (plain : ∀ c cs, (∀ e ∈ table, ¬ e.1 <+: c :: cs) → motive cs → motive (c :: cs))
    (cs : List Char) : motive cs := by
  -- The induction is on the length, as a token is more than one character.
  induction size : cs.length using Nat.strong_induction_on generalizing cs with
  | _ n ih =>
    cases cs with
    | nil => exact nil
    | cons c rest =>
      by_cases starts : ∃ e ∈ table, e.1 <+: c :: rest
      · obtain ⟨e, member, behind, spelled⟩ := starts
        obtain ⟨tail, shown, -⟩ := (proper.tokens e member).exists_cons
        have shorter : behind.length < n := by
          rw [← size, ← spelled, shown, List.length_append, List.length_cons]
          omega
        exact spelled ▸ token e member behind (ih _ shorter behind rfl)
      · have shorter : rest.length < n := by
          rw [← size, List.length_cons]
          exact Nat.lt_succ_self _
        exact plain c rest (fun e member here => starts ⟨e, member, here⟩) (ih _ shorter rest rfl)

end Steps

end Pass

section Single

variable {mark : Char} {e f : List Char × List Char}

theorem pass_single_plain {c : Char} {cs : List Char} (plain : ¬ e.1 <+: c :: cs) :
    pass [e] (c :: cs) = c :: pass [e] cs :=
  pass_plain fun _ member => List.mem_singleton.mp member ▸ plain

/-- A pass for one token leaves a text as it is in which none starts. -/
theorem pass_untouched (front cs : List Char)
    (none : occurrences e.1 (front ++ cs) = occurrences e.1 cs) :
    pass [e] (front ++ cs) = front ++ pass [e] cs := by
  induction front with
  | nil => rfl
  | cons c more ih =>
    have fewer := occurrences_le_append e.1 more cs
    rw [List.cons_append, occurrences_cons] at none
    have absent : ¬ e.1 <+: c :: (more ++ cs) := by
      intro here
      rw [if_pos here] at none
      omega
    rw [if_neg absent, Nat.add_zero] at none
    rw [List.cons_append, pass_single_plain absent, ih none, List.cons_append]

/-- Where a token starts in a text, the value is put in its place. -/
theorem exists_of_touched (proper : IsToken mark e.1) (front cs : List Char)
    (some : occurrences e.1 (front ++ cs) ≠ occurrences e.1 cs) :
    ∃ before after rest, front = before ++ mark :: after ∧
      pass [e] (front ++ cs) = before ++ e.2 ++ rest := by
  induction front with
  | nil => exact absurd rfl some
  | cons c more ih =>
    rw [List.cons_append, occurrences_cons] at some
    by_cases here : e.1 <+: c :: (more ++ cs)
    · obtain ⟨behind, spelled⟩ := here
      obtain ⟨tail, shown, -⟩ := proper.exists_cons
      have first : c = mark := by
        rw [shown, List.cons_append] at spelled
        exact (List.cons.inj spelled).1.symm
      refine ⟨[], more, pass [e] behind, by rw [first, List.nil_append], ?_⟩
      rw [List.cons_append, ← spelled,
        pass_token (.single proper) (List.mem_singleton_self e), List.nil_append]
    · rw [if_neg here, Nat.add_zero] at some
      obtain ⟨before, after, rest, rfl, passed⟩ := ih some
      exact ⟨c :: before, after, rest, rfl, by
        rw [List.cons_append, pass_single_plain here, passed]; rfl⟩

/-- A pass for one token keeps all others that it meets. -/
theorem occurrences_le_pass (apart : Apart f e) (properF : IsToken mark f.1)
    (properE : IsToken mark e.1) (cs : List Char) :
    occurrences f.1 cs ≤ occurrences f.1 (pass [e] cs) := by
  induction cs using tokenwise (.single properE) with
  | nil => exact Nat.le_refl _
  | token g member cs ih =>
    obtain rfl := List.mem_singleton.mp member
    rw [pass_token (.single properE) member, occurrences_other apart properF properE]
    exact ih.trans (occurrences_le_append f.1 g.2 _)
  | plain c cs plain ih =>
    have absent := plain e (List.mem_singleton_self e)
    rw [pass_single_plain absent, occurrences_cons, occurrences_cons]
    by_cases here : f.1 <+: c :: cs
    · -- The rest of the other token has no mark, so the pass leaves it as it is.
      obtain ⟨behind, spelled⟩ := here
      obtain ⟨tail, shown, quiet⟩ := properF.exists_cons
      have kept : f.1 <+: c :: pass [e] cs := by
        rw [shown, List.cons_append] at spelled
        obtain ⟨first, rest⟩ := List.cons.inj spelled
        rw [← rest, pass_untouched _ _ (occurrences_append_of_not_mem properE quiet behind), shown,
          first]
        exact List.prefix_append _ _
      rw [if_pos kept, if_pos ⟨behind, spelled⟩]
      exact Nat.add_le_add_right ih 1
    · rw [if_neg here]
      omega

end Single

section Successive

def successive (table : Substitution) (cs : List Char) : List Char :=
  table.foldl (fun cs e => pass [e] cs) cs

/-- On their way through a text, the passes for the tokens of a table meet no more tokens than there
are in a word. -/
def Clean : Substitution → List Char → List Char → Prop
  | [], _, _ => True
  | e :: rest, word, text =>
    occurrences e.1 text = occurrences e.1 word ∧ Clean rest word (pass [e] text)

instance decidableClean : (table : Substitution) → (word text : List Char) →
    Decidable (Clean table word text)
  | [], _, _ => .isTrue trivial
  | e :: rest, word, text =>
    have := decidableClean rest word (pass [e] text)
    inferInstanceAs (Decidable (_ ∧ _))

def Unmarked (mark : Char) (value : List Char) : Prop := ∃ c rest, value = c :: rest ∧ c ≠ mark

/-- Where a text first differs from another one, the other one has a mark. -/
def Strays (mark : Char) (one other : List Char) : Prop :=
  ∃ front c rest behind, one = front ++ c :: rest ∧ other = front ++ mark :: behind ∧ c ≠ mark

variable {mark : Char} {e : List Char × List Char} {table : Substitution}
  {word text one other : List Char}

theorem successive_cons (e : List Char × List Char) (table : Substitution) (cs : List Char) :
    successive (e :: table) cs = successive table (pass [e] cs) := rfl

theorem Strays.ne (strays : Strays mark one other) : one ≠ other := by
  obtain ⟨front, c, rest, behind, rfl, rfl, differs⟩ := strays
  intro same
  exact differs (List.cons.inj (List.append_cancel_left same)).1

/-- No pass brings a text back that has once strayed. -/
theorem Strays.pass (proper : IsToken mark e.1) (unmarked : Unmarked mark e.2)
    (strays : Strays mark one other) : Strays mark (Command.pass [e] one) other := by
  obtain ⟨front, c, rest, behind, rfl, rfl, differs⟩ := strays
  have absent := proper.not_prefix differs rest
  by_cases untouched : occurrences e.1 (front ++ c :: rest) = occurrences e.1 (c :: rest)
  · rw [pass_untouched _ _ untouched, pass_single_plain absent]
    exact ⟨front, c, _, behind, rfl, rfl, differs⟩
  · obtain ⟨before, after, more, rfl, passed⟩ := exists_of_touched proper front _ untouched
    obtain ⟨d, value, spelled, other⟩ := unmarked
    refine ⟨before, d, value ++ more, after ++ mark :: behind, ?_, ?_, other⟩
    · rw [passed, spelled, List.append_assoc, List.cons_append]
    · rw [List.append_assoc, List.cons_append]

theorem Strays.successive (proper : ∀ e ∈ table, IsToken mark e.1)
    (unmarked : ∀ e ∈ table, Unmarked mark e.2) (strays : Strays mark one other) :
    Strays mark (Command.successive table one) other := by
  induction table generalizing one with
  | nil => exact strays
  | cons e rest ih =>
    obtain ⟨properE, properRest⟩ := List.forall_mem_cons.mp proper
    obtain ⟨unmarkedE, unmarkedRest⟩ := List.forall_mem_cons.mp unmarked
    exact ih properRest unmarkedRest (strays.pass properE unmarkedE)

/-- At the start of a text the passes put out some characters and go on with the rest of it, and of
the word: surely if they are clean, and only if they are, as long as no value is marked. -/
structure Advances (mark : Char) (table : Substitution) (out word text word' text' : List Char) :
    Prop where
  onward : Clean table word text →
    Clean table word' text' ∧ successive table text = out ++ successive table text'
  back : (∀ e ∈ table, Unmarked mark e.2) → ∀ rest, successive table text = out ++ rest →
    successive table text' = rest ∧ (Clean table word' text' → Clean table word text)

/-- A text has all the tokens of a table that a word has. -/
def Covers (table : Substitution) (word text : List Char) : Prop :=
  ∀ e ∈ table, occurrences e.1 word ≤ occurrences e.1 text

/-- A pass for a token keeps the others. -/
theorem Covers.pass (proper : IsTable mark (e :: table)) (covers : Covers table word text) :
    Covers table word (Command.pass [e] text) := by
  obtain ⟨properE, properRest⟩ := List.forall_mem_cons.mp proper.tokens
  obtain ⟨apart, -⟩ := List.pairwise_cons.mp proper.apart
  intro f member
  exact (covers f member).trans
    (occurrences_le_pass (symm (apart f member)) (properRest f member) properE text)

theorem IsTable.tail (proper : IsTable mark (e :: table)) : IsTable mark table :=
  ⟨(List.forall_mem_cons.mp proper.tokens).2, (List.pairwise_cons.mp proper.apart).2⟩

/-- One more pass at the front of the table. -/
theorem Advances.cons {out word' text' after : List Char} (passed : pass [e] text = after)
    (met : occurrences e.1 text = occurrences e.1 word ↔
      occurrences e.1 text' = occurrences e.1 word')
    (further : Advances mark table out word after word' (pass [e] text')) :
    Advances mark (e :: table) out word text word' text' := by
  subst passed
  constructor
  · rintro ⟨same, clean⟩
    obtain ⟨cleanRest, ends⟩ := further.onward clean
    exact ⟨⟨met.mp same, cleanRest⟩, ends⟩
  · intro unmarked rest ends
    obtain ⟨ended, clean⟩ := further.back (List.forall_mem_cons.mp unmarked).2 rest ends
    exact ⟨ended, fun ⟨same, cleanRest⟩ => ⟨met.mpr same, clean cleanRest⟩⟩

/-- Characters that come from a value, or from no token of the word, are not touched again. -/
theorem advances_over (proper : IsTable mark table) (out : List Char) {word' : List Char}
    (same : ∀ e ∈ table, occurrences e.1 word = occurrences e.1 word')
    (covers : Covers table word' text) :
    Advances mark table out word (out ++ text) word' text := by
  induction table generalizing text with
  | nil => exact ⟨fun _ => ⟨trivial, rfl⟩, fun _ rest ends =>
      ⟨List.append_cancel_left ends, fun _ => trivial⟩⟩
  | cons e table ih =>
    obtain ⟨sameE, sameRest⟩ := List.forall_mem_cons.mp same
    obtain ⟨coversE, coversRest⟩ := List.forall_mem_cons.mp covers
    obtain ⟨properE, -⟩ := List.forall_mem_cons.mp proper.tokens
    have further := ih proper.tail sameRest (Covers.pass proper coversRest)
    have more := occurrences_le_append e.1 out text
    constructor
    · rintro ⟨met, clean⟩
      have untouched : occurrences e.1 (out ++ text) = occurrences e.1 text := by omega
      rw [pass_untouched out text untouched] at clean
      obtain ⟨cleanRest, passed⟩ := further.onward clean
      refine ⟨⟨by omega, cleanRest⟩, ?_⟩
      rw [successive_cons, pass_untouched out text untouched, passed, successive_cons]
    · intro unmarked rest ends
      obtain ⟨unmarkedE, unmarkedRest⟩ := List.forall_mem_cons.mp unmarked
      have untouched : occurrences e.1 (out ++ text) = occurrences e.1 text := by
        by_contra touched
        obtain ⟨before, after, behind, rfl, passed⟩ := exists_of_touched properE out text touched
        obtain ⟨c, value, spelled, differs⟩ := unmarkedE
        have strays : Strays mark (pass [e] (before ++ mark :: after ++ text))
            (before ++ mark :: after ++ rest) :=
          ⟨before, c, value ++ behind, after ++ rest, by rw [passed, spelled]; simp, by simp,
            differs⟩
        exact (strays.successive proper.tail.tokens unmarkedRest).ne ends
      rw [successive_cons, pass_untouched out text untouched] at ends
      obtain ⟨ended, clean⟩ := further.back unmarkedRest rest ends
      refine ⟨ended, ?_⟩
      rintro ⟨met, cleanRest⟩
      refine ⟨by omega, ?_⟩
      rw [pass_untouched out text untouched]
      exact clean cleanRest

/-- A token of the word becomes its value. -/
theorem advances_token (proper : IsTable mark table) (member : e ∈ table)
    (covers : Covers table word text) :
    Advances mark table e.2 (e.1 ++ word) (e.1 ++ text) word text := by
  induction table generalizing text with
  | nil => cases member
  | cons f table ih =>
    obtain ⟨-, coversRest⟩ := List.forall_mem_cons.mp covers
    obtain ⟨properF, properRest⟩ := List.forall_mem_cons.mp proper.tokens
    obtain ⟨apart, -⟩ := List.pairwise_cons.mp proper.apart
    have kept := Covers.pass proper coversRest
    rcases List.mem_cons.mp member with rfl | later
    · have same (g : List Char × List Char) (among : g ∈ table) :
          occurrences g.1 (e.1 ++ word) = occurrences g.1 word :=
        occurrences_other (symm (apart g among)) (properRest g among) properF word
      refine .cons (pass_token (.single properF) (List.mem_singleton_self e) text) ?_
        (advances_over proper.tail e.2 same kept)
      rw [occurrences_token properF, occurrences_token properF, Nat.add_right_cancel_iff]
    · have other (cs : List Char) : occurrences f.1 (e.1 ++ cs) = occurrences f.1 cs :=
        occurrences_other (apart e later) properF (properRest e later) cs
      refine .cons (pass_untouched e.1 text (other text)) ?_ (ih proper.tail later kept)
      rw [other, other]

theorem clean_nil (table : Substitution) : Clean table [] [] := by
  induction table with
  | nil => trivial
  | cons e rest ih => exact ⟨rfl, ih⟩

theorem successive_nil (table : Substitution) : successive table [] = [] := by
  induction table with
  | nil => rfl
  | cons e rest ih => exact ih

/-- The passes for a table do the same to a word as one pass for all its tokens if those after the
first one are clean, and only if they are, as long as none of their values is marked. -/
structure IsOnePass (mark : Char) (e : List Char × List Char) (table : Substitution)
    (word : List Char) : Prop where
  of_clean : Clean table word (pass [e] word) →
    successive (e :: table) word = pass (e :: table) word
  clean : (∀ f ∈ table, Unmarked mark f.2) →
    successive (e :: table) word = pass (e :: table) word → Clean table word (pass [e] word)

theorem IsOnePass.append {piece out cs : List Char} (onePass : IsOnePass mark e table cs)
    (passed : pass (e :: table) (piece ++ cs) = out ++ pass (e :: table) cs)
    (advances : Advances mark table out (piece ++ cs) (pass [e] (piece ++ cs)) cs (pass [e] cs)) :
    IsOnePass mark e table (piece ++ cs) := by
  constructor
  · intro clean
    obtain ⟨cleanRest, ends⟩ := advances.onward clean
    rw [passed, successive_cons, ends, ← onePass.of_clean cleanRest, successive_cons]
  · intro unmarked ends
    rw [passed] at ends
    obtain ⟨ended, clean⟩ := advances.back unmarked _ ends
    exact clean (onePass.clean unmarked ended)

theorem isOnePass (proper : IsTable mark (e :: table)) (word : List Char) :
    IsOnePass mark e table word := by
  obtain ⟨properE, properRest⟩ := List.forall_mem_cons.mp proper.tokens
  obtain ⟨apart, -⟩ := List.pairwise_cons.mp proper.apart
  have covers (cs : List Char) : Covers table cs (pass [e] cs) :=
    Covers.pass proper fun _ _ => Nat.le_refl _
  induction word using tokenwise proper with
  | nil => exact ⟨fun _ => successive_nil _, fun _ _ => clean_nil table⟩
  | token f member cs ih =>
    refine ih.append (pass_token proper member cs) ?_
    rcases List.mem_cons.mp member with rfl | later
    · have same (g : List Char × List Char) (among : g ∈ table) :
          occurrences g.1 (f.1 ++ cs) = occurrences g.1 cs :=
        occurrences_other (symm (apart g among)) (properRest g among) properE cs
      rw [pass_token (.single properE) (List.mem_singleton_self f)]
      exact advances_over proper.tail f.2 same (covers cs)
    · rw [pass_untouched f.1 cs (occurrences_other (apart f later) properE (properRest f later) cs)]
      exact advances_token proper.tail later (covers cs)
  | plain c cs plain ih =>
    obtain ⟨plainE, plainRest⟩ := List.forall_mem_cons.mp plain
    have same (g : List Char × List Char) (among : g ∈ table) :
        occurrences g.1 ([c] ++ cs) = occurrences g.1 cs := by
      rw [List.singleton_append, occurrences_cons, if_neg (plainRest g among), Nat.add_zero]
    have passed : pass (e :: table) ([c] ++ cs) = [c] ++ pass (e :: table) cs := pass_plain plain
    have first : pass [e] ([c] ++ cs) = [c] ++ pass [e] cs := pass_single_plain plainE
    refine ih.append passed ?_
    rw [first]
    exact advances_over proper.tail [c] same (covers cs)

end Successive

section Words

/-- What the tokens of a word stand for when there is a rules directory. -/
def Places.values (p : Places) (rules : Path) : Substitution :=
  [(fileToken.toList, p.file.toList), (configToken.toList, p.config.toString.toList),
    (rulesToken.toList, rules.toString.toList)]

/-- A word with all its tokens replaced in one pass. -/
def Places.putInto (p : Places) (rules : Path) (word : String) : String :=
  String.ofList (pass (p.values rules) word.toList)

/-- Nothing that is put into a word makes a token there which is replaced later. -/
def Places.IsCleanFor (p : Places) (rules : Path) (word : String) : Prop :=
  Clean (p.values rules).tail word.toList (pass [(fileToken.toList, p.file.toList)] word.toList)

instance (p : Places) (rules : Path) (word : String) : Decidable (p.IsCleanFor rules word) :=
  decidableClean _ _ _

variable (p : Places) (rules : Path) (word : String)

/-- All tokens start with the brace that opens them. -/
theorem values_isTable : IsTable '\x7b' (p.values rules) := by
  constructor
  · intro e member
    rcases List.mem_cons.mp member with rfl | member
    · exact (by decide : IsToken '\x7b' fileToken.toList)
    · rcases List.mem_cons.mp member with rfl | member
      · exact (by decide : IsToken '\x7b' configToken.toList)
      · obtain rfl := List.mem_singleton.mp member
        exact (by decide : IsToken '\x7b' rulesToken.toList)
  · have fileConfig : ¬ fileToken.toList <+: configToken.toList ∧
        ¬ configToken.toList <+: fileToken.toList := by decide
    have fileRules : ¬ fileToken.toList <+: rulesToken.toList ∧
        ¬ rulesToken.toList <+: fileToken.toList := by decide
    have configRules : ¬ configToken.toList <+: rulesToken.toList ∧
        ¬ rulesToken.toList <+: configToken.toList := by decide
    simp [Places.values, Apart, fileConfig, fileRules, configRules]

theorem passFrom_single (old new : List Char) (skip : Nat) (cs : List Char) :
    passFrom [(old, new)] skip cs = replaceFrom old new skip cs := by
  induction cs generalizing skip with
  | nil => cases skip <;> rfl
  | cons c rest ih =>
    cases skip with
    | succ skip => rw [passFrom, replaceFrom, ih]
    | zero =>
      rw [passFrom, replaceFrom]
      by_cases here : old.isPrefixOf (c :: rest) <;> simp [here, ih]

/-- A token is replaced in one pass. -/
theorem toList_replace (token value s : String) :
    (replace token value s).toList = pass [(token.toList, value.toList)] s.toList := by
  rw [replace, String.toList_ofList, pass, passFrom_single]

variable {p rules}

/-- A word is filled by one pass for each token. -/
theorem toList_fill (given : p.rules = some rules) :
    (fill p word).toList = successive (p.values rules) word.toList := by
  simp only [fill, given, toList_replace, successive, Places.values, List.foldl_cons,
    List.foldl_nil]

/-- With a rules directory each word of a template becomes one argument, in order. It is the word
with all its tokens replaced in one pass if nothing that is put in makes a token which is replaced
later, and only if nothing does, as long as no path starts as a token does. -/
theorem arguments_of_template (template : List String) (p : Places) (rules : Path)
    (given : p.rules = some rules) :
    expand template p = template.map (fill p) ∧
      ∀ word : String,
        (p.IsCleanFor rules word → fill p word = p.putInto rules word) ∧
          (Unmarked '\x7b' p.config.toString.toList → Unmarked '\x7b' rules.toString.toList →
            (fill p word = p.putInto rules word ↔ p.IsCleanFor rules word)) := by
  refine ⟨expand_eq_map p template fun _ _ => .inr (by rw [given]; rfl), ?_⟩
  intro word
  have onePass := isOnePass (values_isTable p rules) word.toList
  rw [← String.toList_inj, toList_fill word given, Places.putInto, String.toList_ofList]
  refine ⟨onePass.of_clean, fun config directory => ⟨onePass.clean ?_, onePass.of_clean⟩⟩
  intro f member
  rcases List.mem_cons.mp member with rfl | member
  · exact config
  · exact List.mem_singleton.mp member ▸ directory

end Words

section Sample

def lintedWith (file : String) : Places :=
  ⟨file, ⟨.root, ["s", "lint-config.json"]⟩, some ⟨.root, ["r"]⟩⟩

/-- A command that is told its rules together with an option. -/
theorem arguments_of_template_plain :
    (lintedWith "a.ts").rules = some ⟨.root, ["r"]⟩ ∧
      (lintedWith "a.ts").IsCleanFor ⟨.root, ["r"]⟩ ("--rules=" ++ rulesToken) ∧
      (lintedWith "a.ts").IsCleanFor ⟨.root, ["r"]⟩ fileToken ∧
      expand ["lint", "--rules=" ++ rulesToken, fileToken] (lintedWith "a.ts") =
        ["lint", "--rules=/r", "a.ts"] := by
  obtain ⟨mapped, each⟩ := arguments_of_template ["lint", "--rules=" ++ rulesToken, fileToken]
    (lintedWith "a.ts") ⟨.root, ["r"]⟩ rfl
  have cleanLint : (lintedWith "a.ts").IsCleanFor ⟨.root, ["r"]⟩ "lint" := by decide
  have cleanRules : (lintedWith "a.ts").IsCleanFor ⟨.root, ["r"]⟩ ("--rules=" ++ rulesToken) := by
    decide
  have cleanFile : (lintedWith "a.ts").IsCleanFor ⟨.root, ["r"]⟩ fileToken := by decide
  refine ⟨rfl, cleanRules, cleanFile, ?_⟩
  rw [mapped, List.map_cons, List.map_cons, List.map_singleton, (each _).1 cleanLint,
    (each _).1 cleanRules, (each _).1 cleanFile]
  decide

/-- A file whose name is a token is not told to the command. -/
theorem token_in_value_is_replaced :
    expand [fileToken] (lintedWith configToken) = ["/s/lint-config.json"] ∧
      [fileToken].map ((lintedWith configToken).putInto ⟨.root, ["r"]⟩) = [configToken] := by
  decide

/-- Characters around a token can make one of it, too. -/
example : expand ["\x7b" ++ fileToken ++ "\x7d"] (lintedWith "config") =
    ["/s/lint-config.json"] := by decide

end Sample

end LintRun.Command
