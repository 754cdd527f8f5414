import LintRun.Proofs.Command.Substitution

/-!
# Words that survive without a rules directory

Without a rules directory, a word that holds its token is dropped, and if it is nothing but the
token, so is an option right before it. What looks like an option is asked of the words as they have
been filled, and of the last one that is left: a file can look like one by its name, and behind
another word that has been dropped a token reaches further back. `survivors_of_template` tells which
words survive, and when these are the ones that the template alone names.
-/
namespace LintRun.Command

section Positions

/-- The positions in a template at which a word stays, given the words behind it. -/
def positions (stays : String → List String → Bool) : List String → List Nat
  | [] => []
  | word :: rest =>
    let later := (positions stays rest).map (· + 1)
    if stays word rest then 0 :: later else later

def wordsAt (template : List String) (spots : List Nat) : List String :=
  spots.filterMap fun i => template[i]?

variable {stays others : String → List String → Bool} {word : String} {rest template : List String}

theorem positions_cons (stays : String → List String → Bool) (word : String)
    (rest : List String) :
    positions stays (word :: rest) =
      if stays word rest then 0 :: (positions stays rest).map (· + 1)
      else (positions stays rest).map (· + 1) := rfl

theorem wordsAt_later (spots : List Nat) :
    wordsAt (word :: rest) (spots.map (· + 1)) = wordsAt rest spots := by
  rw [wordsAt, List.filterMap_map]
  rfl

theorem wordsAt_first (spots : List Nat) :
    wordsAt (word :: rest) (0 :: spots.map (· + 1)) = word :: wordsAt rest spots :=
  congrArg (word :: ·) (wordsAt_later spots)

theorem mem_positions_iff {i : Nat} : i ∈ positions stays template ↔
    ∃ word, template[i]? = some word ∧ stays word (template.drop (i + 1)) = true := by
  induction template generalizing i with
  | nil => simp [positions]
  | cons word rest ih =>
    rw [positions_cons]
    cases i with
    | zero => by_cases kept : stays word rest <;> simp [kept]
    | succ i => by_cases kept : stays word rest <;> simp [kept, ih]

theorem positions_pairwise_lt (stays : String → List String → Bool) (template : List String) :
    (positions stays template).Pairwise (· < ·) := by
  induction template with
  | nil => exact List.Pairwise.nil
  | cons word rest ih =>
    have later : ((positions stays rest).map (· + 1)).Pairwise (· < ·) :=
      List.pairwise_map.mpr (ih.imp Nat.succ_lt_succ)
    rw [positions_cons]
    split
    · exact List.pairwise_cons.mpr ⟨by simp, later⟩
    · exact later

/-- Where more words stay there are more positions. -/
theorem positions_sublist (fewer : ∀ word rest, stays word rest = true → others word rest = true)
    (template : List String) : (positions stays template).Sublist (positions others template) := by
  induction template with
  | nil => exact List.Sublist.slnil
  | cons word rest ih =>
    have later := ih.map (· + 1)
    rw [positions_cons, positions_cons]
    by_cases kept : stays word rest
    · rw [if_pos kept, if_pos (fewer word rest kept)]
      exact later.cons_cons 0
    · rw [if_neg kept]
      split
      · exact later.cons 0
      · exact later

/-- Two rules leave the same positions if they agree at each of them. -/
theorem positions_eq_iff : positions stays template = positions others template ↔
    ∀ i word, template[i]? = some word →
      stays word (template.drop (i + 1)) = others word (template.drop (i + 1)) := by
  constructor
  · intro same i word there
    have member := Iff.of_eq (congrArg (i ∈ ·) same)
    rw [mem_positions_iff, mem_positions_iff] at member
    simpa [there] using member
  · intro agree
    induction template with
    | nil => rfl
    | cons word rest ih =>
      have first := agree 0 word rfl
      have later := ih fun i other there => agree (i + 1) other there
      rw [List.drop_succ_cons, List.drop_zero] at first
      rw [positions_cons, positions_cons, first, later]

end Positions

section Options

/-- How many tokens alone in a list of words still reach for an option before the first of them. -/
def reaching (isOption : String → Bool) : List String → Nat
  | [] => 0
  | word :: rest =>
    if needsRules word then reaching isOption rest + if word = rulesToken then 1 else 0
    else if isOption word then reaching isOption rest - 1
    else 0

def staysAmong (isOption : String → Bool) (word : String) (rest : List String) : Bool :=
  !needsRules word && !(isOption word && decide (0 < reaching isOption rest))

/-- Whether a word stays as the template alone tells: it holds no token for the rules directory, and
is no option right before the token alone. -/
def staysByTemplate (word : String) (rest : List String) : Bool :=
  !needsRules word && !(word.startsWith "-" && rest.head? = some rulesToken)

/-- Options at the end dropped, at most so many. -/
def dropOptions : Nat → List String → List String
  | 0, words => words
  | n + 1, words => dropOptions n (dropOption words)

variable {p : Places} {word : String} {rest template words : List String}

theorem needsRules_rulesToken : needsRules rulesToken = true := by decide

theorem dropOption_concat (words : List String) (word : String) :
    dropOption (words ++ [word]) = if word.startsWith "-" then words else words ++ [word] := by
  simp [dropOption]

theorem dropOptions_concat (n : Nat) {word : String} (plain : word.startsWith "-" = false)
    (words : List String) : dropOptions n (words ++ [word]) = words ++ [word] := by
  induction n with
  | zero => rfl
  | succ n ih => rw [dropOptions, dropOption_concat, plain, if_neg Bool.false_ne_true, ih]

variable (p) in
/-- A word that looks like an option once its tokens are replaced. -/
def looksLikeOption (word : String) : Bool := (fill p word).startsWith "-"

/-- Words behind others drop options from their end, and add those that stay. -/
theorem foldl_addWord (noRules : p.rules = none) (template words : List String) :
    template.foldl (addWord p) words =
      dropOptions (reaching (looksLikeOption p) template) words ++
        (wordsAt template (positions (staysAmong (looksLikeOption p)) template)).map (fill p) := by
  induction template generalizing words with
  | nil => simp [reaching, dropOptions, wordsAt]
  | cons word rest ih =>
    rw [List.foldl_cons, ih, reaching, positions_cons, staysAmong]
    cases needs : needsRules word with
    | true =>
      simp only [Bool.not_true, Bool.false_and, Bool.false_eq_true, if_false, if_true,
        wordsAt_later, addWord, needs, noRules, Option.isNone_none, Bool.and_self]
      by_cases alone : word = rulesToken
      · rw [if_pos alone, if_pos alone]
        rfl
      · rw [if_neg alone, if_neg alone, Nat.add_zero]
    | false =>
      have added : addWord p words word = words ++ [fill p word] := by simp [addWord, needs]
      rw [added]
      cases option : looksLikeOption p word with
      | true =>
        cases reached : reaching (looksLikeOption p) rest with
        | zero => simp [dropOptions, wordsAt_first]
        | succ n =>
          rw [dropOptions, dropOption_concat, ← looksLikeOption, option]
          simp [wordsAt_later]
      | false =>
        rw [dropOptions_concat _ option]
        simp [dropOptions, wordsAt_first]

/-- The words of a template that stay without a rules directory. -/
theorem expand_eq_survivors (noRules : p.rules = none) (template : List String) :
    expand template p =
      (wordsAt template (positions (staysAmong (looksLikeOption p)) template)).map (fill p) := by
  have nothing (n : Nat) : dropOptions n [] = [] := by
    induction n with
    | zero => rfl
    | succ n ih => exact ih
  rw [expand, foldl_addWord noRules, nothing, List.nil_append]

/-- A word that is an option in the template looks like one in the command. -/
theorem looksLikeOption_of_startsWith (p : Places) (option : word.startsWith "-" = true) :
    looksLikeOption p word = true := by
  have first (token value s : String) (proper : IsToken '\x7b' token.toList)
      (starts : s.startsWith "-" = true) : (replace token value s).startsWith "-" = true := by
    rw [String.startsWith_string_iff] at starts ⊢
    obtain ⟨rest, spelled⟩ := starts
    have dash : '-' ≠ '\x7b' := by decide
    have absent := proper.not_prefix dash rest
    have shown : s.toList = '-' :: rest := spelled.symm
    rw [toList_replace, shown, pass_single_plain absent]
    exact List.prefix_append ['-'] _
  have filled := first configToken p.config.toString _ (by decide)
    (first fileToken p.file word (by decide) option)
  unfold looksLikeOption fill
  dsimp only
  split <;> exact first rulesToken _ _ (by decide) filled

/-- What the template drops is dropped. -/
theorem staysByTemplate_of_staysAmong (word : String) (rest : List String)
    (stays : staysAmong (looksLikeOption p) word rest = true) :
    staysByTemplate word rest = true := by
  simp only [staysAmong, staysByTemplate, Bool.and_eq_true, Bool.not_eq_true',
    Bool.and_eq_false_iff, decide_eq_false_iff_not] at stays ⊢
  refine ⟨stays.1, ?_⟩
  by_contra dropped
  simp only [not_or, Bool.not_eq_false, not_not] at dropped
  obtain ⟨option, alone⟩ := dropped
  have looks := looksLikeOption_of_startsWith p option
  obtain ⟨others, rfl⟩ := List.head?_eq_some_iff.mp alone
  have reached : 0 < reaching (looksLikeOption p) (rulesToken :: others) := by
    simp [reaching, needsRules_rulesToken]
  simp [looks, reached] at stays

end Options

section Template

variable {p : Places} {word : String} {template : List String}

theorem needsRules_eq_false_iff : needsRules word = false ↔ ¬ Occurs rulesToken word := by
  rw [← Bool.not_eq_true, not_iff_not, needsRules, List.any_eq_true]
  constructor
  · rintro ⟨i, -, here⟩
    exact (List.isPrefixOf_iff_prefix.mp here).isInfix.trans (List.drop_suffix i _).isInfix
  · rintro ⟨front, behind, spelled⟩
    have within : front.length ≤ word.length := by
      rw [← String.length_toList, ← spelled, List.append_assoc, List.length_append]
      exact Nat.le_add_right _ _
    refine ⟨front.length, by simpa using Nat.lt_succ_of_le within, ?_⟩
    rw [← spelled, List.append_assoc, List.drop_left]
    exact List.isPrefixOf_iff_prefix.mpr (List.prefix_append _ _)

/-- The positions in a template at which the words stay that it does not drop itself. -/
def lasting (template : List String) : List Nat := positions staysByTemplate template

/-- No token for the rules directory drops an option that the template does not drop. -/
def KeepsTo (template : List String) (p : Places) : Prop :=
  ∀ i word, template[i]? = some word → ¬ Occurs rulesToken word → looksLikeOption p word = true →
    0 < reaching (looksLikeOption p) (template.drop (i + 1)) →
      word.startsWith "-" = true ∧ template[i + 1]? = some rulesToken

/-- Right before each token alone stands a word that holds no such token, and that is an option in
the template if it looks like one in the command. -/
def IsOrderly (template : List String) (p : Places) : Prop :=
  ∀ i word, template[i]? = some word → template[i + 1]? = some rulesToken →
    ¬ Occurs rulesToken word ∧ (looksLikeOption p word = true → word.startsWith "-" = true)

theorem staysByTemplate_iff {rest : List String} : staysByTemplate word rest = true ↔
    ¬ Occurs rulesToken word ∧
      ¬ (word.startsWith "-" = true ∧ rest.head? = some rulesToken) := by
  rw [staysByTemplate, Bool.and_eq_true, Bool.not_eq_true', needsRules_eq_false_iff,
    Bool.not_eq_true', ← Bool.not_eq_true, Bool.and_eq_true, decide_eq_true_eq]

theorem staysAmong_iff {isOption : String → Bool} {rest : List String} :
    staysAmong isOption word rest = true ↔
      ¬ Occurs rulesToken word ∧ ¬ (isOption word = true ∧ 0 < reaching isOption rest) := by
  rw [staysAmong, Bool.and_eq_true, Bool.not_eq_true', needsRules_eq_false_iff,
    Bool.not_eq_true', ← Bool.not_eq_true, Bool.and_eq_true, decide_eq_true_eq]

theorem mem_lasting_iff {i : Nat} : i ∈ lasting template ↔
    ∃ word, template[i]? = some word ∧ ¬ Occurs rulesToken word ∧
      ¬ (word.startsWith "-" = true ∧ template[i + 1]? = some rulesToken) := by
  simp only [lasting, mem_positions_iff, staysByTemplate_iff, List.head?_drop]

/-- What stays in a command are the words that the template does not drop, exactly if no token drops
more. -/
theorem positions_eq_lasting_iff :
    positions (staysAmong (looksLikeOption p)) template = lasting template ↔
      KeepsTo template p := by
  rw [lasting, positions_eq_iff]
  refine forall₃_congr fun i word there => ?_
  rw [Bool.eq_iff_iff, ← List.head?_drop (l := template)]
  constructor
  · intro same plain looks reached
    by_contra asked
    have stays := staysAmong_iff.mp (same.mpr (staysByTemplate_iff.mpr ⟨plain, asked⟩))
    exact stays.2 ⟨looks, reached⟩
  · intro keeps
    refine ⟨staysByTemplate_of_staysAmong word _, fun stays => ?_⟩
    obtain ⟨plain, asked⟩ := staysByTemplate_iff.mp stays
    exact staysAmong_iff.mpr ⟨plain, fun ⟨looks, reached⟩ => asked (keeps plain looks reached)⟩

/-- A token alone reaches for the word before it only, if that holds no such token. -/
theorem reaching_eq (isOption : String → Bool)
    (orderly : ∀ i word, template[i]? = some word → template[i + 1]? = some rulesToken →
      ¬ Occurs rulesToken word) :
    reaching isOption template = if template.head? = some rulesToken then 1 else 0 := by
  induction template with
  | nil => rfl
  | cons word rest ih =>
    have later := ih fun i other there => orderly (i + 1) other there
    rw [reaching, later, List.head?_cons]
    cases needs : needsRules word with
    | true =>
      have notNext : rest.head? ≠ some rulesToken := by
        intro next
        rw [List.head?_eq_getElem?] at next
        have plain := needsRules_eq_false_iff.mpr (orderly 0 word rfl next)
        rw [needs] at plain
        cases plain
      simp [notNext]
    | false =>
      have other : word ≠ rulesToken := by
        rintro rfl
        rw [needsRules_rulesToken] at needs
        cases needs
      simp only [Bool.false_eq_true, if_false, Option.some.injEq, other]
      split
      · split <;> rfl
      · rfl

theorem keepsTo_of_isOrderly (orderly : IsOrderly template p) : KeepsTo template p := by
  intro i word there plain looks reached
  have further (k : Nat) (other : String) (found : (template.drop (i + 1))[k]? = some other)
      (next : (template.drop (i + 1))[k + 1]? = some rulesToken) : ¬ Occurs rulesToken other := by
    rw [List.getElem?_drop] at found next
    exact (orderly _ other found next).1
  rw [reaching_eq _ further, List.head?_drop] at reached
  by_cases next : template[i + 1]? = some rulesToken
  · exact ⟨(orderly i word there next).2 looks, next⟩
  · rw [if_neg next] at reached
    exact absurd reached (Nat.lt_irrefl 0)

/-- Without a rules directory, the words that a command keeps stand at some of the positions that
the template tells by itself: a word there holds no token for the directory, and is no option right
before the token alone. They are all of them, whatever the tokens stand for, exactly if no token
drops another option, and surely if right before each token alone stands a word that looks like an
option only if it is one in the template. The token for the file is at such a position wherever it
stands. -/
theorem survivors_of_template (template : List String) :
    (lasting template).Pairwise (· < ·) ∧
      (∀ i, i ∈ lasting template ↔
        ∃ word, template[i]? = some word ∧ ¬ Occurs rulesToken word ∧
          ¬ (word.startsWith "-" = true ∧ template[i + 1]? = some rulesToken)) ∧
      (∀ i, template[i]? = some fileToken → i ∈ lasting template) ∧
      ∀ p : Places, p.rules = none →
        ∃ spots, spots.Sublist (lasting template) ∧
          expand template p = (wordsAt template spots).map (fill p) ∧
          (spots = lasting template ↔ KeepsTo template p) ∧
          (IsOrderly template p → spots = lasting template) := by
  refine ⟨positions_pairwise_lt _ _, fun i => mem_lasting_iff, ?_, ?_⟩
  · intro i there
    have plain : ¬ Occurs rulesToken fileToken := by decide
    have noOption : ¬ "-".toList <+: fileToken.toList := by decide
    exact mem_lasting_iff.mpr ⟨fileToken, there, plain,
      fun ⟨option, _⟩ => noOption (String.startsWith_string_iff.mp option)⟩
  · intro p noRules
    exact ⟨positions (staysAmong (looksLikeOption p)) template,
      positions_sublist staysByTemplate_of_staysAmong template,
      expand_eq_survivors noRules template, positions_eq_lasting_iff,
      fun orderly => positions_eq_lasting_iff.mpr (keepsTo_of_isOrderly orderly)⟩

/-- A file whose name looks like an option is dropped with the token behind it. -/
theorem file_taken_for_option :
    lasting ["lint", fileToken, rulesToken] = [0, 1] ∧
      expand ["lint", fileToken, rulesToken] ⟨"a.ts", ⟨.root, ["c"]⟩, none⟩ = ["lint", "a.ts"] ∧
      expand ["lint", fileToken, rulesToken] ⟨"-x.ts", ⟨.root, ["c"]⟩, none⟩ = ["lint"] := by
  decide +kernel

/-- Behind another token alone, a token drops an option that is not right before it. -/
example : lasting ["-a", "-b", rulesToken, rulesToken] = [0] ∧
    expand ["-a", "-b", rulesToken, rulesToken] ⟨"a.ts", ⟨.root, ["c"]⟩, none⟩ = [] := by
  decide +kernel

end Template

end LintRun.Command
