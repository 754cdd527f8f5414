import LintRun.Proofs.Check.Preparation
import LintRun.Proofs.Command.Words
import LintRun.Proofs.CommandLine.Arguments
import LintRun.Proofs.FileTree.Resolve
import LintRun.Proofs.FileTree.Writing
import LintRun.Proofs.Flow.Requests

/-!
# The rules directory of a check

A rules directory comes to a check from its command line or from the settings of the project, and
each request hands it on to the command. The settings are seen from the root, so the command gets an
absolute path from them. What the command line tells is handed on as it is
(`rules_directory_of_check`): a relative path means another place in the scratch directory.
-/
namespace LintRun.Check

open LintRun.Command (Machine rulesToken)
open LintRun.CommandLine (Arguments Reader)
open LintRun.FileTree

variable {σ : Type} {m : Machine σ} {a : Arguments} {f : Flow (Configuration.Memory × σ)}
  {rs : List Record}

/-- A check that is prepared has its root and the settings of its project. -/
theorem exists_settings_of_prepare [Wording] (prepared : prepare m a = .ok (f, rs)) :
    ∃ root s, m.space.tree.resolve m.space.cwd (a.root.getD .here) = .ok root ∧
      Settings.load Depth.project m.space.tree m.space.cwd root = .ok s ∧
      f.linter.rulesDirectory = a.rulesDirectory.or s.rulesDirectory := by
  obtain ⟨root, st, _, resolved, settled, -, -, -, rfl⟩ := prepare_eq_ok.mp prepared
  simp only [settings, bind_eq_ok, pure, Except.pure, Except.ok.injEq] at settled
  obtain ⟨s, loaded, _, -, rfl⟩ := settled
  exact ⟨root, s, resolved, loaded, rfl⟩

/-- The project file of a root is there only if the root is a directory. -/
theorem exists_leadsTo_of_isSection [Wording] {tree : FileTree} {cwd : Location} {root : Path}
    {t : Table} (rooted : root.isAbsolute) (plain : root.IsPlain)
    (there : Settings.IsSection Depth.project tree cwd root t) :
    ∃ base, tree.LeadsTo [] root.names (base, .directory) := by
  obtain ⟨b, document, read, -⟩ := there
  have filePlain : (root.join (Path.ofString Settings.filename)).IsPlain :=
    plain.join (Path.ofString_isPlain _)
  have spelled : Path.ofString Settings.filename = ⟨.relative, [Settings.filename]⟩ := by
    decide
  rw [spelled] at read filePlain
  have named : (root.join ⟨.relative, [Settings.filename]⟩).names =
      root.names ++ [Settings.filename] := rfl
  have anchored : (root.join ⟨.relative, [Settings.filename]⟩).isAbsolute = true := rooted
  unfold FileTree.read at read
  split at read
  · cases read
  · split at read
    · next l _ _ walk =>
      obtain ⟨-, walked⟩ := walkFrom_of_walk filePlain walk nofun
      rw [if_pos anchored, named] at walked
      obtain ⟨_, _, leads⟩ := exists_leads_of_walkFrom walked
      obtain ⟨n, _, base, -, first, -⟩ := leads.exists_split (List.cons_ne_nil _ [])
      exact ⟨base, n, first⟩
    · cases read
    · cases read

/-- A path leads to the same places from the root on as its own names lead to from its directory. -/
theorem leadsTo_join_iff {tree : FileTree} {root w : Path} {base : Location}
    (there : tree.LeadsTo [] root.names (base, .directory)) (place : Location × Entry) :
    tree.LeadsTo [] (root.join w).names place ↔
      tree.LeadsTo (if w.isAbsolute then [] else base) w.names place := by
  obtain ⟨n, first⟩ := there
  unfold Path.join
  split
  · rfl
  · exact first.leadsTo_append_iff w.names place

/-- A rules directory from the settings is one that the section of the project file names, as seen
from the root. -/
theorem exists_within_of_load [Wording] {tree : FileTree} {cwd : Location} {root d : Path}
    {s : Settings} (absolute : root.isAbsolute = true) (plain : root.IsPlain)
    (loaded : Settings.load Depth.project tree cwd root = .ok s)
    (named : s.rulesDirectory = some d) :
    d.isAbsolute = true ∧ d.IsPlain ∧ ∃ t written w base,
      Settings.IsSection Depth.project tree cwd root t ∧
        Settings.ofTable (Settings.plainKeys t) = .ok written ∧
        written.rulesDirectory = some w ∧ d = root.join w ∧
        tree.LeadsTo [] root.names (base, .directory) := by
  obtain ⟨t, written, there, checked, rfl⟩ := Settings.exists_section_of_load loaded named
  obtain ⟨w, given, rfl⟩ := Option.map_eq_some_iff.mp named
  obtain ⟨base, leads⟩ := exists_leadsTo_of_isSection absolute plain there
  have anchored : (root.join w).isAbsolute = true := by
    unfold Path.join
    split
    · next own => exact own
    · exact absolute
  exact ⟨anchored, plain.join (Settings.ofTable_isPlain checked given), t, written, w, base, there,
    checked, given, rfl, leads⟩

/-- The command of a check with a rules directory gets the text of its path, whoever reads the
command line. A path from the settings is absolute, and leads where the path in the project file
leads from the root. A path from the command line is handed on as it is, so it is absolute only if
it was given so. -/
theorem rules_directory_of_check [Wording] (c : Reader) (m : Machine σ)
    (placed : (pathOf m.space.cwd).IsPlain) (args : List String) (a : Arguments)
    (told : Arguments.ofList? c args = some a) (f : Flow (Configuration.Memory × σ))
    (rs : List Record) (prepared : prepare m a = .ok (f, rs)) (d : Path)
    (configured : f.linter.rulesDirectory = some d) :
    (∀ s t q, .request q ∈ (f.run s t rs).events →
      m.words [rulesToken] q = [d.toString] ∧
        ∀ template, m.words template q = template.map (Command.fill (m.places q))) ∧
      (isRooted d.toString = true ↔ ∀ v, a.rulesDirectory = some v → v.isAbsolute = true) ∧
      (isRooted d.toString = true → ∀ (t : FileTree) (cwd : Location),
        t.walk cwd d.toString =
          if isLongPath d.toString then .error .nameTooLong else t.walkFrom linkLimit [] d.names) ∧
      (∀ v, a.rulesDirectory = some v → d = v) ∧
      (a.rulesDirectory = none → ∃ root t written w base,
        m.space.tree.resolve m.space.cwd (a.root.getD .here) = .ok root ∧
          Settings.IsSection Depth.project m.space.tree m.space.cwd root t ∧
          Settings.ofTable (Settings.plainKeys t) = .ok written ∧
          written.rulesDirectory = some w ∧ d = root.join w ∧
          m.space.tree.LeadsTo [] root.names (base, .directory) ∧
          ∀ place, m.space.tree.LeadsTo [] d.names place ↔
            m.space.tree.LeadsTo (if w.isAbsolute then [] else base) w.names place) := by
  obtain ⟨plainRoot, plainRules⟩ := Arguments.ofList?_isPlain told
  obtain ⟨root, s, resolved, loaded, source⟩ := exists_settings_of_prepare prepared
  have plainStart : (a.root.getD .here).IsPlain := by
    cases given : a.root with
    | none => exact Path.IsPlain.nil .relative
    | some p => exact plainRoot p given
  obtain ⟨absolute, plain⟩ := resolve_isPlain placed plainStart resolved
  -- Where the path comes from decides whether it is absolute.
  have origin : d.IsPlain ∧ (d.isAbsolute = true ↔ ∀ v, a.rulesDirectory = some v →
      v.isAbsolute = true) ∧ (∀ v, a.rulesDirectory = some v → d = v) ∧
      (a.rulesDirectory = none → s.rulesDirectory = some d) := by
    cases given : a.rulesDirectory with
    | some v =>
      rw [given, Option.some_or, configured] at source
      obtain rfl := Option.some.inj source
      exact ⟨plainRules d given, by simp, by simp, nofun⟩
    | none =>
      rw [given, Option.none_or, configured] at source
      obtain ⟨anchored, plainRules, -⟩ := exists_within_of_load absolute plain loaded source.symm
      exact ⟨plainRules, by simp [anchored], nofun, fun _ => source.symm⟩
  obtain ⟨plainRules, anchored, fromArguments, fromSettings⟩ := origin
  rw [Path.isRooted_toString d plainRules]
  refine ⟨?_, anchored, ?_, fromArguments, ?_⟩
  · intro state t q made
    obtain ⟨r, -, configuration, text, -, rfl⟩ := f.exists_record_of_request state t rs q made
    exact ⟨Machine.words_rulesToken configured, Machine.words_eq_map configured⟩
  · intro rooted t cwd
    rw [walk_toString t d plainRules, if_pos rooted]
  · intro untold
    obtain ⟨-, -, t, written, w, base, there, checked, given, rfl, leads⟩ :=
      exists_within_of_load absolute plain loaded (fromSettings untold)
    exact ⟨root, t, written, w, base, resolved, there, checked, given, rfl, leads,
      leadsTo_join_iff leads⟩

section Sample

attribute [local instance] Wording.leftOut

/-- A machine with a file to lint and a directory of rules. -/
def withRules : Machine Unit :=
  ⟨⟨⟨[(["a.ts"], .file ByteArray.empty false), (["r"], .directory)]⟩, [], ""⟩, ["s"],
    fun _ => none⟩

/-- What a command line tells that names the file and a rules directory. -/
def naming (rules : Path) : Arguments :=
  ⟨[⟨.relative, ["a.ts"]⟩], none, none, none, none, false, none, none, some rules, none, none,
    false⟩

theorem walk_file (anchor : Anchor) :
    withRules.space.tree.walk [] (Path.toString ⟨anchor, ["a.ts"]⟩) =
      .ok (["a.ts"], .file ByteArray.empty false) := by
  have short : isLongPath (Path.toString ⟨anchor, ["a.ts"]⟩) = false := by
    cases anchor <;> decide
  have leads : Leads withRules.space.tree 0 [] ["a.ts"] (["a.ts"], .file ByteArray.empty false) :=
    .file (by decide) rfl
  have plain : Path.IsPlain ⟨anchor, ["a.ts"]⟩ := by
    cases anchor <;> decide
  refine walk_of_leads plain short ?_ (Nat.zero_le linkLimit)
  rwa [ite_self]

/-- The reader of its command lines. -/
def ruleReader : Reader := .ofTree withRules.space.tree withRules.space.cwd

/-- The command line is understood. -/
theorem ofList?_withRules (rules : String) (p : Path) (spelled : ruleReader.path? rules = some p) :
    Arguments.ofList? ruleReader ["check", "--rules-dir", rules, "a.ts"] = some (naming p) := by
  have option : CommandLine.Argument.ofText "--rules-dir" = .awaits .rulesDirectory := rfl
  have file : CommandLine.Argument.ofText "a.ts" = .item (.file "a.ts") := rfl
  have items : CommandLine.items none ["--rules-dir", rules, "a.ts"] =
      some [.value .rulesDirectory rules, .file "a.ts"] := by
    simp [CommandLine.items, option, file]
  have path : Path.ofString "a.ts" = ⟨.relative, ["a.ts"]⟩ := by decide
  have read : CommandLine.readOption ruleReader.path?
      (CommandLine.valueOf .rulesDirectory [.value .rulesDirectory rules, .file "a.ts"]) =
        some (some p) := congrArg (Option.map some) spelled
  have told : Arguments.ofItems? ruleReader [.value .rulesDirectory rules, .file "a.ts"] =
      some (naming p) := by
    rw [Arguments.ofItems?, read]
    simp [CommandLine.valueOf, CommandLine.readOption, CommandLine.filesOf,
      CommandLine.failsRunOf, naming, path]
  have noNul : Path.holdsNul ⟨.relative, ["a.ts"]⟩ = false := by decide
  have there : ruleReader.takesFile "a.ts" = true := by
    refine Reader.takesFile_ofTree ?_
    rw [path, FileTree.isFile, noNul, show withRules.space.cwd = [] from rfl, walk_file]
    rfl
  have files : CommandLine.filesOf [.value .rulesDirectory rules, .file "a.ts"] = ["a.ts"] := rfl
  exact Arguments.ofList?_eq_some.mpr ⟨_, _, rfl, items, told, by simp [files],
    by simpa [files] using there⟩

theorem resolve_bare (anchor : Anchor) :
    withRules.space.tree.resolve [] ⟨anchor, []⟩ = .ok ⟨.root, []⟩ := by
  have noNul : Path.holdsNul ⟨anchor, []⟩ = false := rfl
  rw [resolve, noNul]
  simp only [resolveFrom]
  cases anchor <;> rfl

theorem resolve_file :
    withRules.space.tree.resolve [] ⟨.relative, ["a.ts"]⟩ = .ok ⟨.root, ["a.ts"]⟩ := by
  have noNul : Path.holdsNul ⟨.relative, ["a.ts"]⟩ = false := by decide
  have there : withRules.space.tree.entry? ["a.ts"] = some (.file ByteArray.empty false) := rfl
  rw [resolve, noNul]
  simp [resolveFrom, Way.enter, Way.location, follow, Path.isAbsolute, there, pathOf]

theorem load_withRules : Settings.load Depth.project withRules.space.tree [] ⟨.root, []⟩ =
    .ok .default := by
  have spelled : Path.join ⟨.root, []⟩ (Path.ofString Settings.filename) =
      ⟨.root, [Settings.filename]⟩ := by decide
  have noNul : Path.holdsNul ⟨.root, [Settings.filename]⟩ = false := by decide
  have short : isLongPath (Path.toString ⟨.root, [Settings.filename]⟩) = false := by decide
  have plain : Path.IsPlain ⟨.root, [Settings.filename]⟩ := by decide
  have step : IsStep Settings.filename := by decide
  have absent : withRules.space.tree.entry? [Settings.filename] = none := rfl
  have walked : withRules.space.tree.walk [] (Path.toString ⟨.root, [Settings.filename]⟩) =
      .error .noEntry := by
    rw [walk_of_short plain [] short]
    simp [Path.isAbsolute, walkFrom_step step, absent]
  rw [Settings.load, spelled]
  simp [FileTree.isFile, noNul, walked, isAbsence]

/-- The check of that command line is prepared. -/
theorem prepare_withRules (rules : Path) :
    ∃ f rs, prepare withRules (naming rules) = .ok (f, rs) ∧
      f.linter.rulesDirectory = some rules := by
  have read : withRules.space.tree.read [] ⟨.root, ["a.ts"]⟩ = .ok ByteArray.empty := by
    have noNul : Path.holdsNul ⟨.root, ["a.ts"]⟩ = false := by decide
    rw [FileTree.read, noNul, walk_file]
    rfl
  have record : Record.ofFile withRules.space.tree [] ⟨.relative, ["a.ts"]⟩ (some ⟨.root, []⟩) =
      .ok ⟨⟨.root, ["a.ts"]⟩, _, .bytes ByteArray.empty, none⟩ :=
    bind_eq_ok.mpr ⟨_, resolve_file, bind_eq_ok.mpr ⟨_, resolve_bare .root,
      bind_eq_ok.mpr ⟨_, mapError_eq_ok.mpr read, rfl⟩⟩⟩
  have found : records withRules.space.tree [] ⟨.root, []⟩ (naming rules).files = .ok [_] :=
    bind_eq_ok.mpr ⟨_, record, rfl⟩
  have settled : settings withRules (naming rules) ⟨.root, []⟩ =
      .ok (Settings.default.override (naming rules) none) :=
    bind_eq_ok.mpr ⟨_, load_withRules, bind_eq_ok.mpr ⟨none, rfl, rfl⟩⟩
  exact ⟨_, _, prepare_eq_ok.mpr ⟨_, _, .prose, resolve_bare .relative, settled, found, rfl, rfl,
    rfl⟩, rfl⟩

/-- A rules directory that is told from the root on. -/
theorem rules_directory_of_check_absolute :
    ∃ a f rs, Arguments.ofList? ruleReader ["check", "--rules-dir", "/r", "a.ts"] = some a ∧
      prepare withRules a = .ok (f, rs) ∧
      f.linter.rulesDirectory = some ⟨.root, ["r"]⟩ ∧ isRooted "/r" = true ∧
      ∀ s t q, .request q ∈ (f.run s t rs).events → withRules.words [rulesToken] q = ["/r"] := by
  have text : Path.toString ⟨.root, ["r"]⟩ = "/r" := by decide
  have told := ofList?_withRules "/r" ⟨.root, ["r"]⟩ (by decide)
  obtain ⟨f, rs, prepared, configured⟩ := prepare_withRules ⟨.root, ["r"]⟩
  obtain ⟨handed, rooted, -⟩ := rules_directory_of_check ruleReader withRules
    (Path.IsPlain.nil .root) _ _ told f rs prepared _ configured
  rw [text] at handed rooted
  refine ⟨_, f, rs, told, prepared, configured, rooted.mpr ?_, ?_⟩
  · intro v given
    cases given
    rfl
  · intro s t q made
    exact (handed s t q made).1

/-- A rules directory that is told from the working directory on is there, but nothing is under its
text in the scratch directory. -/
theorem relative_rules_directory_is_lost :
    ∃ a f rs, Arguments.ofList? ruleReader ["check", "--rules-dir", "r", "a.ts"] = some a ∧
      prepare withRules a = .ok (f, rs) ∧
      (∀ q : Request, q.rulesDirectory = f.linter.rulesDirectory →
        withRules.words [rulesToken] q = ["r"]) ∧
      isRooted "r" = false ∧
      withRules.space.tree.walk withRules.space.cwd "r" = .ok (["r"], .directory) ∧
      withRules.space.tree.walk withRules.scratch "r" = .error .noEntry := by
  have text : Path.toString ⟨.relative, ["r"]⟩ = "r" := by decide
  have plain : Path.IsPlain ⟨.relative, ["r"]⟩ := by decide
  have short : isLongPath (Path.toString ⟨.relative, ["r"]⟩) = false := by decide
  have walked (cwd : Location) : withRules.space.tree.walk cwd "r" =
      withRules.space.tree.walkFrom linkLimit cwd ["r"] := by
    have along := walk_of_short (t := withRules.space.tree) plain cwd short
    rwa [text] at along
  have step : IsStep "r" := by decide
  have there : withRules.space.tree.entry? ["r"] = some .directory := rfl
  have absent : withRules.space.tree.entry? ["s", "r"] = none := rfl
  have told := ofList?_withRules "r" ⟨.relative, ["r"]⟩ (by decide)
  obtain ⟨f, rs, prepared, configured⟩ := prepare_withRules ⟨.relative, ["r"]⟩
  refine ⟨_, f, rs, told, prepared, ?_, by decide, ?_, ?_⟩
  · intro q same
    have becomes := Machine.words_rulesToken (m := withRules) (same.trans configured)
    rwa [text] at becomes
  · rw [walked, show withRules.space.cwd = [] from rfl, walkFrom_step step]
    simp [there]
  · rw [walked, show withRules.scratch = ["s"] from rfl, walkFrom_step step]
    simp [absent]

end Sample

end LintRun.Check
