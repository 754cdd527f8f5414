import Mathlib.Data.List.Infix
import LintRun.Command

/-!
# What the tokens of a command become

A token alone becomes the text that stands for it, but the tokens are replaced one after the other:
the text for the file must hold none of the others, and the one for the configuration no token for
the rules directory. The text for the rules directory is never touched.
-/
namespace LintRun.Command

section Replace

variable (old new : List Char)

/-- A token that does not occur is not replaced. -/
theorem replaceFrom_of_not_infix (cs : List Char) (absent : ¬ old <:+: cs) :
    replaceFrom old new 0 cs = cs := by
  induction cs with
  | nil => rfl
  | cons c rest ih =>
    have notHere : ¬ old.isPrefixOf (c :: rest) = true := by
      rw [List.isPrefixOf_iff_prefix]
      exact fun here => absent here.isInfix
    have notLater : ¬ old <:+: rest :=
      fun later => absent (later.trans (List.suffix_cons c rest).isInfix)
    rw [replaceFrom, if_neg notHere, ih notLater]

/-- The rest of an occurrence is passed over. -/
theorem replaceFrom_length (cs : List Char) : replaceFrom old new cs.length cs = [] := by
  induction cs with
  | nil => rfl
  | cons c rest ih => rw [List.length_cons, replaceFrom, ih]

theorem replaceFrom_self (filled : old ≠ []) : replaceFrom old new 0 old = new := by
  obtain ⟨c, rest, rfl⟩ := List.exists_cons_of_ne_nil filled
  have here : (c :: rest).isPrefixOf (c :: rest) = true :=
    List.isPrefixOf_iff_prefix.mpr List.prefix_rfl
  rw [replaceFrom, if_pos here, List.length_cons, Nat.add_sub_cancel, replaceFrom_length,
    List.append_nil]

end Replace

def Occurs (token s : String) : Prop := token.toList <:+: s.toList

instance (token s : String) : Decidable (Occurs token s) :=
  inferInstanceAs (Decidable (token.toList <:+: s.toList))

theorem replace_of_not_occurs {token s : String} (value : String) (absent : ¬ Occurs token s) :
    replace token value s = s := by
  rw [replace, replaceFrom_of_not_infix _ _ _ absent, String.ofList_toList]

theorem replace_self {token : String} (value : String) (filled : token ≠ "") :
    replace token value token = value := by
  rw [replace, replaceFrom_self _ _ (by simpa using filled), String.ofList_toList]

section Tokens

variable (p : Places)

/-- The token for the file becomes the file. -/
theorem fill_fileToken (noConfig : ¬ Occurs configToken p.file)
    (noRules : ¬ Occurs rulesToken p.file) : fill p fileToken = p.file := by
  unfold fill
  rw [replace_self p.file (by decide), replace_of_not_occurs _ noConfig]
  dsimp only
  split <;> exact replace_of_not_occurs _ noRules

/-- The token for the configuration becomes its path. -/
theorem fill_configToken (noRules : ¬ Occurs rulesToken p.config.toString) :
    fill p configToken = p.config.toString := by
  have noFile : ¬ Occurs fileToken configToken := by decide
  unfold fill
  rw [replace_of_not_occurs _ noFile, replace_self p.config.toString (by decide)]
  dsimp only
  split <;> exact replace_of_not_occurs _ noRules

/-- The token for the rules directory becomes its path. -/
theorem fill_rulesToken {rules : Path} (given : p.rules = some rules) :
    fill p rulesToken = rules.toString := by
  have noFile : ¬ Occurs fileToken rulesToken := by decide
  have noConfig : ¬ Occurs configToken rulesToken := by decide
  unfold fill
  rw [replace_of_not_occurs _ noFile, replace_of_not_occurs _ noConfig, given]
  exact replace_self rules.toString (by decide)

/-- With a rules directory, or without a need for one, no word is dropped. -/
theorem expand_eq_map (template : List String)
    (kept : ∀ word ∈ template, needsRules word = false ∨ p.rules.isSome) :
    expand template p = template.map (fill p) := by
  have added (words : List String) :
      template.foldl (addWord p) words = words ++ template.map (fill p) := by
    induction template generalizing words with
    | nil => simp
    | cons word rest ih =>
      obtain ⟨now, later⟩ := List.forall_mem_cons.mp kept
      have one : addWord p words word = words ++ [fill p word] := by
        unfold addWord
        rcases now with plain | given
        · simp [plain]
        · simp [Option.isSome_iff_ne_none.mp given]
      rw [List.foldl_cons, one, ih later, List.map_cons, List.append_assoc, List.singleton_append]
  exact added []

end Tokens

namespace Machine

variable {σ : Type} (m : Machine σ) (r : Request)

/-- What the tokens of a command stand for when it is run for a request. -/
def places : Places := ⟨scratchPath r.relative, m.scratchFile configFilename, r.rulesDirectory⟩

variable {m r}

theorem words_configToken (noRules : ¬ Occurs rulesToken (m.scratchFile configFilename).toString) :
    m.words [configToken] r = [(m.scratchFile configFilename).toString] := by
  have plain : needsRules configToken = false := by decide
  have becomes := fill_configToken (m.places r) noRules
  exact (expand_eq_map (m.places r) _ (by simp [plain])).trans (congrArg ([·]) becomes)

theorem words_fileToken (noConfig : ¬ Occurs configToken (scratchPath r.relative))
    (noRules : ¬ Occurs rulesToken (scratchPath r.relative)) :
    m.words [fileToken] r = [scratchPath r.relative] := by
  have plain : needsRules fileToken = false := by decide
  have becomes := fill_fileToken (m.places r) noConfig noRules
  exact (expand_eq_map (m.places r) _ (by simp [plain])).trans (congrArg ([·]) becomes)

/-- With a rules directory each word of a command is kept, with its tokens replaced. -/
theorem words_eq_map {rules : Path} (given : r.rulesDirectory = some rules)
    (template : List String) : m.words template r = template.map (Command.fill (m.places r)) :=
  expand_eq_map (m.places r) template fun _ _ => .inr (by rw [places, given]; rfl)

theorem words_rulesToken {rules : Path} (given : r.rulesDirectory = some rules) :
    m.words [rulesToken] r = [rules.toString] :=
  (words_eq_map given [rulesToken]).trans (congrArg ([·]) (fill_rulesToken (m.places r) given))

end Machine

end LintRun.Command
