import LintRun.CommandLine.Arguments
import LintRun.CommandLine.Words
import LintRun.Proofs.Outcomes
import LintRun.Proofs.Path.Spelling

/-!
# What a command line tells

A command line is understood if its items are, and the reader takes what it names for files
(`ofList?_eq_some`). A path that it gives is one that a text spells. A text has no words exactly if
there is nothing but blanks in it (`words_eq_nil_iff`).
-/
namespace LintRun.CommandLine

/-- A word that has begun is among the words, even if nothing is added to it. -/
theorem ne_nil_of_wordsFrom {mode : Mode} {word : List Char} {cs : List Char}
    {ws : List (List Char)} (cut : wordsFrom mode (some word) cs = .ok ws) : ws ≠ [] := by
  induction cs generalizing mode word ws with
  | nil =>
    obtain ⟨_, -, rfl⟩ := map_eq_ok.mp cut
    exact List.cons_ne_nil _ _
  | cons c rest ih =>
    unfold wordsFrom at cut
    split at cut
    · obtain ⟨later, -, rfl⟩ := map_eq_ok.mp cut
      exact List.cons_ne_nil _ _
    · exact ih cut

/-- A text has no words exactly if there is nothing but blanks in it. -/
theorem words_eq_nil_iff {text : String} :
    words text = .ok [] ↔ ∀ c ∈ text.toList, isGap c = true := by
  have none (cs : List Char) :
      wordsFrom .bare none cs = .ok [] ↔ ∀ c ∈ cs, isGap c = true := by
    induction cs with
    | nil => simp [wordsFrom, atEnd, Except.map]
    | cons c rest ih =>
      unfold wordsFrom
      by_cases gap : isGap c = true
      · simp [gap, map_eq_ok, ih]
      · simp only [gap, Bool.and_false, Bool.false_eq_true, if_false, List.forall_mem_cons,
          false_and, iff_false]
        exact fun cut => ne_nil_of_wordsFrom cut rfl
  rw [words, map_eq_ok, ← none]
  simp

theorem Reader.path?_isPlain {c : Reader} {s : String} {p : Path} (read : c.path? s = some p) :
    p.IsPlain := by
  unfold Reader.path? at read
  split at read
  · exact Option.some.inj read ▸ Path.ofString_isPlain s
  · cases read

/-- A reader takes the files of its tree. -/
theorem Reader.takesFile_ofTree {tree : FileTree} {cwd : Location} {s : String}
    (there : tree.isFile cwd (Path.ofString s) = .ok true) :
    (Reader.ofTree tree cwd).takesFile s = true := by
  simp [Reader.ofTree, there, Except.toOption]

/-- An optional value that is read is what its text spells. -/
theorem eq_of_readOption {α : Type} {read : String → Option α} {text : Option String}
    {x : Option α} (spelled : readOption read text = some x) : x = text.bind read := by
  cases text with
  | none => exact (Option.some.inj spelled).symm
  | some s =>
    obtain ⟨v, known, rfl⟩ := Option.map_eq_some_iff.mp spelled
    exact known.symm

theorem readOption_isPlain {c : Reader} {text : Option String} {p : Path}
    (read : readOption c.path? text = some (some p)) : p.IsPlain := by
  cases text with
  | none => cases Option.some.inj read
  | some s =>
    obtain ⟨q, spelled, same⟩ := Option.map_eq_some_iff.mp read
    exact Option.some.inj same ▸ Reader.path?_isPlain spelled

namespace Arguments

variable {c : Reader} {a : Arguments}

/-- What items tell, as far as a reader can read it. -/
def ofReadable (c : Reader) (is : List Item) : Arguments where
  files := (filesOf is).map Path.ofString
  root := (valueOf .root is).bind c.path?
  reporter := valueOf .reporter is
  reportLimit := (valueOf .reportLimit is).bind c.int?
  failsRun := failsRunOf is
  summarizes := is.contains (.switch .summarizes)
  configuration := (valueOf .configuration is).bind c.path?
  configFilename := valueOf .configFilename is
  rulesDirectory := (valueOf .rulesDirectory is).bind c.path?
  limit := (valueOf .limit is).bind c.limit?
  command := valueOf .command is
  showsDebug := is.contains (.switch .showsDebug)

/-- Items that tell anything can all be read. -/
theorem eq_ofReadable {is : List Item} (told : ofItems? c is = some a) : a = ofReadable c is := by
  simp only [ofItems?, Option.bind_eq_bind, Option.bind_eq_some_iff, pure, Option.some.injEq]
    at told
  obtain ⟨reportLimit, readReportLimit, limit, readLimit, root, readRoot, configuration,
    readConfiguration, rules, readRules, rfl⟩ := told
  obtain rfl := eq_of_readOption readReportLimit
  obtain rfl := eq_of_readOption readLimit
  obtain rfl := eq_of_readOption readRoot
  obtain rfl := eq_of_readOption readConfiguration
  obtain rfl := eq_of_readOption readRules
  rfl

theorem ofItems?_isPlain {is : List Item} (told : ofItems? c is = some a) :
    (∀ p, a.root = some p → p.IsPlain) ∧ ∀ p, a.rulesDirectory = some p → p.IsPlain := by
  simp only [ofItems?, Option.bind_eq_bind, Option.bind_eq_some_iff, pure, Option.some.injEq]
    at told
  obtain ⟨_, -, _, -, root, readRoot, _, -, rules, readRules, rfl⟩ := told
  refine ⟨?_, ?_⟩
  · rintro p rfl
    exact readOption_isPlain readRoot
  · rintro p rfl
    exact readOption_isPlain readRules

variable {args : List String}

/-- A command line is understood if its items are and what it names is taken for files. -/
theorem ofList?_eq_some :
    ofList? c args = some a ↔
      ∃ rest is, afterName? args = some rest ∧ items none rest = some is ∧ ofItems? c is = some a ∧
        filesOf is ≠ [] ∧ ∀ text ∈ filesOf is, c.takesFile text = true := by
  simp only [ofList?, Option.bind_eq_bind, Option.bind_eq_some_iff, Option.ite_none_right_eq_some,
    Option.some.injEq, Bool.and_eq_true, Bool.not_eq_true', List.isEmpty_eq_false_iff,
    List.all_eq_true]
  constructor
  · rintro ⟨rest, named, is, split, _, told, ⟨filled, there⟩, rfl⟩
    exact ⟨rest, is, named, split, told, filled, there⟩
  · rintro ⟨rest, is, named, split, told, filled, there⟩
    exact ⟨rest, named, is, split, a, told, ⟨filled, there⟩, rfl⟩

/-- The root and the rules directory that a command line tells are spelled by texts. -/
theorem ofList?_isPlain (told : ofList? c args = some a) :
    (∀ p, a.root = some p → p.IsPlain) ∧ ∀ p, a.rulesDirectory = some p → p.IsPlain := by
  obtain ⟨_, _, -, -, items, -⟩ := ofList?_eq_some.mp told
  exact ofItems?_isPlain items

end Arguments

end LintRun.CommandLine
