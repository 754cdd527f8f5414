import LintRun.Settings
import LintRun.Proofs.Checks
import LintRun.Proofs.Path.Spelling

/-!
# Where settings come from

Settings that name a rules directory stand in the section of the project file, which is there, and
the directory is the one that the section names as seen from the root. What keeps settings from
being loaded is told as a problem of the configuration, unless the project file cannot be asked for,
its bytes spell no text, or its text asks for too much (`load_error_cases`).
-/
namespace LintRun.Settings

open Schema

/-- A path that a value gives is one that a text spells. -/
theorem pathOfValue_isPlain {v : Value} {p : Path} (given : pathOfValue v = .ok p) : p.IsPlain := by
  unfold pathOfValue Schema.path at given
  split at given
  · exact Except.ok.inj given ▸ Path.ofString_isPlain _
  · cases given

theorem optional_isPlain {v : Value} {p : Path}
    (given : Schema.optional pathOfValue v = .ok (some p)) : p.IsPlain := by
  unfold Schema.optional at given
  split at given
  · cases given
  · next other =>
    cases read : pathOfValue v with
    | error ds =>
      rw [read] at given
      cases given
    | ok q =>
      rw [read] at given
      obtain rfl : q = p := Option.some.inj (Except.ok.inj given)
      exact pathOfValue_isPlain read

/-- The rules directory of a section is spelled by a text. -/
theorem ofTable_isPlain {t : Table} {s : Settings} (checked : ofTable t = .ok s) {p : Path}
    (given : s.rulesDirectory = some p) : p.IsPlain := by
  simp only [ofTable, Checked.apply_eq_ok] at checked
  -- The fields from the last one back to the rules directory, then those before it.
  obtain ⟨_, _, ⟨_, _, ⟨_, _, ⟨_, _, ⟨_, _, ⟨_, rules, earlier, checkedRules, rfl⟩, -, rfl⟩, -,
    rfl⟩, -, rfl⟩, -, rfl⟩, -, rfl⟩ := checked
  obtain ⟨_, _, ⟨_, _, ⟨_, _, ⟨_, _, same, -, rfl⟩, -, rfl⟩, -, rfl⟩, -, rfl⟩ := earlier
  cases same
  obtain rfl : rules = some p := given
  rcases exists_of_withDefault _ _ _ _ _ checkedRules with absent | ⟨e, -, written⟩
  · cases absent
  · exact optional_isPlain written

variable [Wording]

/-- A table stands in the section of the project file in a directory. -/
def IsSection (depth : Nat) (tree : FileTree) (cwd : Location) (root : Path) (t : Table) : Prop :=
  ∃ b document, tree.read cwd (root.join (Path.ofString filename)) = .ok b ∧
    Configuration.readToml depth b = .ok document ∧ section? document = some (.table t)

variable {depth : Nat} {tree : FileTree} {cwd : Location} {root d : Path} {s : Settings}

/-- Settings with a rules directory are those of a section. -/
theorem exists_section_of_load (loaded : load depth tree cwd root = .ok s)
    (named : s.rulesDirectory = some d) :
    ∃ t written, IsSection depth tree cwd root t ∧ ofTable (plainKeys t) = .ok written ∧
      s = written.within root := by
  unfold load at loaded
  dsimp only at loaded
  split at loaded
  · cases loaded
  · cases Except.ok.inj loaded
    cases named
  · split at loaded
    · cases loaded
    · next b read =>
      unfold ofBytes at loaded
      split at loaded
      · cases loaded
      · cases loaded
      · cases loaded
      · next document readable =>
        split at loaded
        · cases Except.ok.inj loaded
          cases named
        · next v there =>
          unfold ofSection at loaded
          split at loaded
          · next t =>
            split at loaded
            · next written checked =>
              exact ⟨t, written, ⟨b, document, read, readable, there⟩, checked,
                (Except.ok.inj loaded).symm⟩
            · cases loaded
          · cases loaded

/-- What keeps the settings of a project from being loaded without a problem of the configuration
being told. -/
inductive Untold (depth : Nat) (tree : FileTree) (cwd : Location) (root : Path) : Error → Prop where
  /-- The file system does not say whether the project file is there. -/
  | unasked (problem : SystemError)
    (refused : tree.isFile cwd (root.join (Path.ofString filename)) = .error problem) :
    Untold depth tree cwd root (.system problem)
  /-- The bytes of the project file are not UTF-8. -/
  | undecodable (there : tree.isFile cwd (root.join (Path.ofString filename)) = .ok true)
    (b : ByteArray) (read : tree.read cwd (root.join (Path.ofString filename)) = .ok b)
    (fault : Text.Utf8.Fault) (faulty : Text.Utf8.decode b = .error fault) :
    Untold depth tree cwd root (.undecodable fault)
  /-- The text of the project file asks for too much. -/
  | excess (there : tree.isFile cwd (root.join (Path.ofString filename)) = .ok true)
    (b : ByteArray) (read : tree.read cwd (root.join (Path.ofString filename)) = .ok b)
    (text : String) (decoded : Text.Utf8.decode b = .ok text) (x : Excess)
    (exceeds : Toml.read depth text = .error (.excess x)) :
    Untold depth tree cwd root (.ofExcess x)

variable {e : Error}

theorem load_of_untold (untold : Untold depth tree cwd root e) :
    load depth tree cwd root = .error e := by
  cases untold with
  | unasked problem refused => simp only [load, refused]
  | undecodable there b read fault faulty =>
    simp only [load, there, read, ofBytes, Configuration.readToml, faulty]
  | excess there b read text decoded x exceeds =>
    simp only [load, there, read, ofBytes, Configuration.readToml, decoded, exceeds]

theorem ofBytes_error_cases {file : Path} {b : ByteArray}
    (failed : ofBytes depth root file b = .error e) :
    (∃ p, e = .config p) ∨ (∃ fault, Text.Utf8.decode b = .error fault ∧ e = .undecodable fault) ∨
      ∃ text x, Text.Utf8.decode b = .ok text ∧ Toml.read depth text = .error (.excess x) ∧
        e = .ofExcess x := by
  unfold ofBytes Configuration.readToml at failed
  cases decoded : Text.Utf8.decode b with
  | error fault =>
    rw [decoded] at failed
    cases failed
    exact .inr (.inl ⟨fault, rfl, rfl⟩)
  | ok text =>
    rw [decoded] at failed
    dsimp only at failed
    cases document : Toml.read depth text with
    | error why =>
      rw [document] at failed
      cases why with
      | excess x =>
        cases failed
        exact .inr (.inr ⟨text, x, rfl, document, rfl⟩)
      | malformed =>
        cases failed
        exact .inl ⟨_, rfl⟩
    | ok t =>
      rw [document] at failed
      dsimp only at failed
      split at failed
      · cases failed
      · unfold ofSection at failed
        split at failed
        · split at failed
          · cases failed
          · cases failed
            exact .inl ⟨_, rfl⟩
        · cases failed
          exact .inl ⟨_, rfl⟩

/-- Settings that are not loaded have a problem that is told, or one of the three that are not. -/
theorem load_error_cases (failed : load depth tree cwd root = .error e) :
    (∃ p, e = .config p) ∨ Untold depth tree cwd root e := by
  unfold load at failed
  dsimp only at failed
  split at failed
  · next problem refused =>
    cases failed
    exact .inr (.unasked problem refused)
  · cases failed
  · next there =>
    split at failed
    · cases failed
      exact .inl ⟨_, rfl⟩
    · next b read =>
      rcases ofBytes_error_cases failed with told | ⟨fault, faulty, rfl⟩ | ⟨text, x, decoded,
        exceeds, rfl⟩
      · exact .inl told
      · exact .inr (.undecodable there b read fault faulty)
      · exact .inr (.excess there b read text decoded x exceeds)

omit [Wording] in
/-- None of them is an error of the program itself. -/
theorem Untold.isOwn (untold : Untold depth tree cwd root e) : e.isOwn = false := by
  cases untold <;> rfl

end LintRun.Settings
