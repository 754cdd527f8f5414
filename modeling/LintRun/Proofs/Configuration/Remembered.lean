import LintRun.Proofs.Configuration.Nearest
import LintRun.Proofs.Outcomes
import LintRun.Proofs.Text.Characters

/-!
# Remembered configurations

What a lookup remembers never changes what it finds: every remembered directory has the table that
a search from it finds (`Memory.Faithful`), each lookup keeps that, and so a lookup after any others
ends as it would have ended alone (`resolve_after_others`).
-/
namespace LintRun.Configuration

namespace Memory

/-- Directories that are added have the new table, the others what they had. -/
theorem find?_add (m : Memory) (visited : List Location) (t : Table) (d : Location) :
    (m.add visited t).find? d = if d ∈ visited then some t else m.find? d := by
  unfold find? add
  induction visited with
  | nil => simp
  | cons first rest ih =>
    by_cases same : first = d
    · simp [same]
    · have other : d ≠ first := Ne.symm same
      simpa [same, other] using ih

variable [Wording]

/-- Every remembered table is what a search from its directory upwards finds. -/
def Faithful (tree : FileTree) (cwd : Location) (name : String) (m : Memory) : Prop :=
  ∀ d t, m.find? d = some t → search tree cwd name (upward d) = .ok t

theorem empty_faithful (tree : FileTree) (cwd : Location) (name : String) :
    empty.Faithful tree cwd name := by
  intro d t remembered
  cases remembered

end Memory

section LookUp

variable [Wording] {tree : FileTree} {cwd : Location} {name : String} {m : Memory}

/-- One directory of a lookup: what is remembered of it is what a search finds, and a directory that
has no file of the name is passed. -/
theorem lookUp_cons (faithful : m.Faithful tree cwd name) (d : Location) (above : List Location)
    (shape : upward d = d :: above) :
    lookUp tree cwd name m (d :: above) = ([], search tree cwd name (d :: above)) ∨
      lookUp tree cwd name m (d :: above) = ([d], search tree cwd name (d :: above)) ∨
      tree.isFile cwd (candidate name d) = .ok false ∧
        search tree cwd name (d :: above) = search tree cwd name above ∧
        lookUp tree cwd name m (d :: above) =
          (d :: (lookUp tree cwd name m above).1, (lookUp tree cwd name m above).2) := by
  rw [lookUp, search]
  cases remembered : m.find? d with
  | some t =>
    have found := faithful d t remembered
    rw [shape, search] at found
    exact .inl (by rw [found])
  | none =>
    dsimp only
    cases asked : tree.isFile cwd (candidate name d) with
    | error e => exact .inr (.inl rfl)
    | ok there =>
      cases there with
      | true => exact .inr (.inl rfl)
      | false => exact .inr (.inr ⟨rfl, rfl, rfl⟩)

/-- A lookup with the help of what is remembered finds what a search finds, and comes to every
directory that it looks at. -/
theorem lookUp_upward (faithful : m.Faithful tree cwd name) (start : Location) :
    (lookUp tree cwd name m (upward start)).2 = search tree cwd name (upward start) ∧
      ∀ d ∈ (lookUp tree cwd name m (upward start)).1, ComesTo tree cwd name start d := by
  induction start using List.reverseRecOn with
  | nil =>
    rw [upward_nil]
    rcases lookUp_cons faithful [] [] rfl with found | found | ⟨-, above, found⟩
    all_goals rw [found]
    · exact ⟨rfl, by simp⟩
    · exact ⟨rfl, by simp [ComesTo.refl]⟩
    · exact ⟨above.symm, by simp [lookUp, ComesTo.refl]⟩
  | append_singleton parent last ih =>
    rw [upward_concat]
    rcases lookUp_cons faithful _ _ (upward_concat parent last) with found | found |
      ⟨absent, above, found⟩
    all_goals rw [found]
    · exact ⟨rfl, by simp⟩
    · exact ⟨rfl, by simp [ComesTo.refl]⟩
    · refine ⟨ih.1.trans above.symm, ?_⟩
      intro d looked
      rcases List.mem_cons.mp looked with rfl | looked
      · exact .refl _
      · exact (ih.2 d looked).concat absent

/-- A table that a lookup finds may be remembered for all directories that it looked at. -/
theorem Memory.Faithful.add (faithful : m.Faithful tree cwd name) (start : Location) (t : Table)
    (found : (lookUp tree cwd name m (upward start)).2 = .ok t) :
    (m.add (lookUp tree cwd name m (upward start)).1 t).Faithful tree cwd name := by
  obtain ⟨same, comes⟩ := lookUp_upward faithful start
  intro d u remembered
  rw [Memory.find?_add] at remembered
  split at remembered
  · next looked =>
    cases remembered
    rw [← search_upward_of_comesTo (comes d looked), ← same, found]
  · exact faithful d u remembered

end LookUp

namespace Lookup

section Others

variable [Wording] (k : Lookup) (tree : FileTree) (cwd : Location)

/-- The configuration that a search finds for a file when nothing is remembered. -/
def searched (p : Path) : Except Error Table :=
  match tree.resolve cwd p with
  | .error e => .error e
  | .ok file => (search tree cwd k.filename (upward file.parent.names)).mapError (unresolved p)

/-- The configurations for files in a row, and what is remembered after them. -/
def resolveAll (m : Memory) : List Path → List (Except Error Table) × Memory
  | [] => ([], m)
  | p :: rest =>
    let (outcome, m) := k.resolve tree cwd p m
    let (outcomes, m) := resolveAll m rest
    (outcome :: outcomes, m)

variable {k tree cwd}

/-- One step of the invariant: a lookup finds what a search finds, and what is remembered stays
faithful. -/
theorem resolve_of_faithful (searches : k.override = none) {m : Memory}
    (faithful : m.Faithful tree cwd k.filename) (p : Path) :
    (k.resolve tree cwd p m).1 = k.searched tree cwd p ∧
      (k.resolve tree cwd p m).2.Faithful tree cwd k.filename := by
  unfold resolve searched
  rw [searches]
  cases tree.resolve cwd p with
  | error e => exact ⟨rfl, faithful⟩
  | ok file =>
    obtain ⟨same, -⟩ := lookUp_upward faithful file.parent.names
    dsimp only
    rw [← same]
    cases found : (lookUp tree cwd k.filename m (upward file.parent.names)).2 with
    | error why => exact ⟨rfl, faithful⟩
    | ok t => exact ⟨rfl, faithful.add file.parent.names t found⟩

/-- Lookups in a row find what searches find, one by one. -/
theorem resolveAll_of_faithful (searches : k.override = none) {m : Memory}
    (faithful : m.Faithful tree cwd k.filename) (files : List Path) :
    (k.resolveAll tree cwd m files).1 = files.map (k.searched tree cwd) ∧
      (k.resolveAll tree cwd m files).2.Faithful tree cwd k.filename := by
  induction files generalizing m with
  | nil => exact ⟨rfl, faithful⟩
  | cons p rest ih =>
    obtain ⟨now, kept⟩ := resolve_of_faithful searches faithful p
    obtain ⟨later, still⟩ := ih kept
    exact ⟨congrArg₂ List.cons now later, still⟩

variable (k tree cwd)

/-- Of the directories from `start` upwards, the nearest one that has a file of the name. -/
def IsNearest (start d : Location) : Prop :=
  ComesTo tree cwd k.filename start d ∧ tree.isFile cwd (candidate k.filename d) = .ok true

variable {k tree cwd}

/-- What a search finds is told by the file in the nearest directory. -/
theorem searched_of_isNearest {p file : Path} (resolved : tree.resolve cwd p = .ok file)
    {d : Location} (nearest : k.IsNearest tree cwd file.parent.names d) :
    k.searched tree cwd p =
      (load Depth.found tree cwd (candidate k.filename d)).mapError (unresolved p) := by
  unfold searched
  rw [resolved]
  dsimp only
  rw [search_upward_of_isFile nearest.1 nearest.2]

/-- A lookup after any others ends as it would have ended alone, and so do lookups in whatever
order. The table in the nearest file of the name is found, and the empty one if there is none; if
that file cannot be used, or holds no table, the error tells so for the file that is to be linted.
But a value of excess in it, a directory that cannot be asked for its file, and a path that leads
nowhere at all end the lookup with an error of their own. -/
theorem resolve_after_others (k : Lookup) (tree : FileTree) (cwd : Location)
    (searches : k.override = none) (earlier : List Path) (p : Path) :
    let outcome := (k.resolve tree cwd p (k.resolveAll tree cwd .empty earlier).2).1
    outcome = (k.resolve tree cwd p .empty).1 ∧
      (k.resolveAll tree cwd .empty earlier).1 =
        earlier.map (fun q => (k.resolve tree cwd q .empty).1) ∧
      (∀ e, tree.resolve cwd p = .error e → outcome = .error e) ∧
      ∀ file, tree.resolve cwd p = .ok file →
        let start := file.parent.names
        (∀ d, k.IsNearest tree cwd start d →
          let found := readFile Depth.found tree cwd (candidate k.filename d)
          let place := (candidate k.filename d).toString
          (∀ t, found = .ok (.table t) → outcome = .ok t) ∧
          (∀ v, found = .ok v → (∀ t, v ≠ .table t) →
            outcome = .error (.resolution p.toString
              s!"Configuration at {place} must be a table")) ∧
          (∀ why, found = .error why → (∀ x, why ≠ .excess x) →
            outcome = .error (.resolution p.toString
              s!"Unable to load configuration from {place}: {why.message}")) ∧
          (∀ x, found = .error (.excess x) → outcome = .error (.ofExcess x))) ∧
        ((∀ d, d <+: start → tree.isFile cwd (candidate k.filename d) = .ok false) →
          outcome = .ok []) ∧
        (∀ d e, ComesTo tree cwd k.filename start d →
          tree.isFile cwd (candidate k.filename d) = .error e → outcome = .error (.system e)) := by
  intro outcome
  have fresh (q : Path) : (k.resolve tree cwd q .empty).1 = k.searched tree cwd q :=
    (resolve_of_faithful searches (Memory.empty_faithful tree cwd k.filename) q).1
  obtain ⟨before, faithful⟩ :=
    resolveAll_of_faithful searches (Memory.empty_faithful tree cwd k.filename) earlier
  have now : outcome = k.searched tree cwd p := (resolve_of_faithful searches faithful p).1
  refine ⟨now.trans (fresh p).symm, by simp only [before, fresh], ?_, ?_⟩
  · intro e refused
    rw [now, searched, refused]
  · intro file resolved start
    refine ⟨?_, ?_, ?_⟩
    · intro d nearest found place
      rw [now, searched_of_isNearest resolved nearest]
      refine ⟨?_, ?_, ?_, ?_⟩
      · intro t (read : readFile _ _ _ _ = _)
        rw [load, read]
        rfl
      · intro v read other
        rw [load_of_ne_table _ _ read other]
        rfl
      · intro why failed within
        rw [load_of_error _ _ nearest.2 failed within]
        rfl
      · intro x (failed : readFile _ _ _ _ = _)
        rw [load, failed]
        cases x <;> rfl
    · intro absent
      rw [now, searched, resolved]
      dsimp only
      rw [search_upward_of_absent absent]
      rfl
    · intro d e comes refused
      rw [now, searched, resolved]
      dsimp only
      rw [search_upward_of_error comes refused]
      rfl

end Others

attribute [local instance] Wording.leftOut

/-- Lookups by the name that configuration files have if nothing else is said. -/
def byDefault : Lookup := ⟨defaultConfigFilename, none⟩

def rootTree (text : List Char) : FileTree :=
  ⟨[([defaultConfigFilename], .file (Text.Utf8.encode (String.ofList text)) false)]⟩

def besideRoot : Path := ⟨.root, ["a.ts"]⟩

section RootTree

variable (text : List Char)

theorem resolve_rootTree : (rootTree text).resolve [] besideRoot = .ok besideRoot := by
  have noNul : besideRoot.holdsNul = false := by decide
  have absent : FileTree.entry? (rootTree text) ["a.ts"] = none := by
    simp [FileTree.entry?, rootTree, defaultConfigFilename]
  have located : FileTree.Way.location [] ⟨true, ["a.ts"]⟩ = ["a.ts"] := by
    simp [FileTree.Way.location, FileTree.follow]
  have ends (here : FileTree.Way) (depth : Nat) :
      (rootTree text).resolveFrom [] depth [] here [] = .ok here := by
    rw [FileTree.resolveFrom]
  have reached (depth : Nat) : (rootTree text).resolveFrom [] depth [] ⟨true, []⟩ ["a.ts"] =
      .ok ⟨true, ["a.ts"]⟩ := by
    rw [FileTree.resolveFrom]
    simp [FileTree.Way.enter, located, absent, ends]
  have given : besideRoot.names = ["a.ts"] ∧ besideRoot.isAbsolute = true := ⟨rfl, rfl⟩
  simp only [FileTree.resolve, noNul, given, reached, located, Bool.false_eq_true, if_false]
  rfl

theorem walk_rootTree :
    (rootTree text).walk [] "/tslint.json" = .ok ([defaultConfigFilename],
      .file (Text.Utf8.encode (String.ofList text)) false) := by
  have names : FileTree.namesOf "/tslint.json" = ["tslint.json"] := by decide
  have rooted : FileTree.isRooted "/tslint.json" = true := by decide
  have shortPath : FileTree.isLongPath "/tslint.json" = false := by decide
  have shortName : FileTree.isLongName "tslint.json" = false := by decide
  simp only [FileTree.walk, names, rooted, shortPath]
  rw [FileTree.walkFrom]
  simp [shortName, FileTree.entry?, rootTree, defaultConfigFilename]

theorem isNearest_rootTree : byDefault.IsNearest (rootTree text) [] [] [] := by
  have named : (candidate byDefault.filename []).toString = "/tslint.json" := by decide
  have noNul : (candidate byDefault.filename []).holdsNul = false := by decide
  refine ⟨.refl [], ?_⟩
  simp [FileTree.isFile, named, noNul, walk_rootTree]

theorem readFile_rootTree (depth : Nat) :
    readFile depth (rootTree text) [] (candidate byDefault.filename []) =
      readJson depth (Text.Utf8.encode (String.ofList text)) := by
  have named : (candidate byDefault.filename []).toString = "/tslint.json" := by decide
  have noNul : (candidate byDefault.filename []).holdsNul = false := by decide
  have plain : ¬ (candidate byDefault.filename []).suffix = tomlSuffix := by decide
  have read : (rootTree text).read [] (candidate byDefault.filename []) =
      .ok (Text.Utf8.encode (String.ofList text)) := by
    rw [FileTree.read, noNul, named, walk_rootTree]
    exact if_neg (by decide)
  rw [readFile, read]
  exact if_neg plain

/-- A text is read from its bytes as it is read from its characters. -/
theorem readJson_of_readChars {depth : Nat} {v : Value}
    (read : Json.readChars (.file depth) (Text.unifyLineEnds text) = .ok v) :
    readJson depth (Text.Utf8.encode (String.ofList text)) = .ok v := by
  simp only [readJson, Text.Utf8.decode_encode, String.toList_ofList, read]

theorem readJson_of_excess {depth offset : Nat} {x : Excess}
    (read : Json.readChars (.file depth) (Text.unifyLineEnds text) = .error ⟨.excess x, offset⟩) :
    readJson depth (Text.Utf8.encode (String.ofList text)) = .error (.excess x) := by
  simp only [readJson, Text.Utf8.decode_encode, String.toList_ofList, read]

end RootTree

/-- A file is looked up a third time. -/
theorem resolve_after_others_twice :
    let tree := rootTree "\x7b\"a\":1\x7d".toList
    byDefault.override = none ∧
      (byDefault.resolve tree [] besideRoot
        (byDefault.resolveAll tree [] .empty [besideRoot, besideRoot]).2).1 =
        .ok [("a", .int 1)] := by
  intro tree
  obtain ⟨-, -, -, ends⟩ :=
    resolve_after_others byDefault tree [] rfl [besideRoot, besideRoot] besideRoot
  obtain ⟨nearest, -, -⟩ := ends besideRoot (resolve_rootTree _)
  obtain ⟨table, -, -, -⟩ := nearest [] (isNearest_rootTree _)
  refine ⟨rfl, table _ ?_⟩
  rw [readFile_rootTree]
  exact readJson_of_readChars _ rfl

/-- A configuration with an integer that has one digit too many. -/
def longText : List Char :=
  "\x7b\"a\":".toList ++ List.replicate (Excess.digitLimit + 1) '9' ++ ['\x7d']

theorem readFile_longText :
    readFile Depth.found (rootTree longText) [] (candidate byDefault.filename []) =
      .error (.excess (.digits (Excess.digitLimit + 1))) := by
  -- A value may hold floats, which cannot be told apart, but whether it was read can.
  have long : (Json.readChars (.file Depth.found) (Text.unifyLineEnds longText)).map (fun _ => ()) =
      .error ⟨.excess (.digits (Excess.digitLimit + 1)), 5⟩ := by decide +kernel
  rw [readFile_rootTree]
  exact readJson_of_excess _ (map_eq_error.mp long)

/-- The nearest configuration cannot be used, and the error does not tell for which file. -/
theorem long_integer_ends_lookup :
    let outcome := (byDefault.resolve (rootTree longText) [] besideRoot .empty).1
    (rootTree longText).resolve [] besideRoot = .ok besideRoot ∧
      byDefault.IsNearest (rootTree longText) [] besideRoot.parent.names [] ∧
      outcome = .error (.ofExcess (.digits (Excess.digitLimit + 1))) ∧
      ∀ path cause, outcome ≠ .error (.resolution path cause) := by
  intro outcome
  have nearest := isNearest_rootTree longText
  have ending : outcome = .error (.ofExcess (.digits (Excess.digitLimit + 1))) := by
    have found := (resolve_of_faithful (k := byDefault) rfl
      (Memory.empty_faithful (rootTree longText) [] byDefault.filename) besideRoot).1
    rw [searched_of_isNearest (resolve_rootTree _) nearest, load, readFile_longText] at found
    exact found
  refine ⟨resolve_rootTree _, nearest, ending, ?_⟩
  intro path cause told
  rw [ending] at told
  cases told

end Lookup

end LintRun.Configuration
