import LintRun.Proofs.Settings.KeyOrder

/-!
# What a section says

A section says something of a setting if its check lets the last value under the key through. The
settings of a project are what its section says, with the defaults for the rest
(`load_of_hasSection`).
-/
namespace LintRun.Settings

open Schema

/-- What a section says of a setting: what its check makes of the last value under the key. -/
def said {α : Type} (check : Value → Checked α) (key : String) (t : Table) : Option α :=
  (lastUnder key t).bind fun v => (check v).toOption

/-- What a section says, and the defaults for the rest. -/
def ofSaid (t : Table) : Settings where
  reporter := (said text "reporter" t).getD default.reporter
  reportLimit := (said int "report_limit" t).getD default.reportLimit
  failsRun := (said bool "emit_error" t).getD default.failsRun
  summarizes := (said bool "summarize_failure_output" t).getD default.summarizes
  rulesDirectory := said pathOfValue "rules_directory" t
  configFilename := (said text "config_filename" t).getD default.configFilename
  configuration := said pathOfValue "configuration" t
  limit := said positiveFloat "timeout" t
  command := said texts "command" t

/-- The section of a project; it is empty if there is no project file, or no section in it. -/
inductive HasSection [Wording] (depth : Nat) (tree : FileTree) (cwd : Location) (root : Path) :
    Table → Prop where
  | table {t : Table} (stands : IsSection depth tree cwd root t) : HasSection depth tree cwd root t
  | noFile (absent : tree.isFile cwd (root.join (Path.ofString filename)) = .ok false) :
    HasSection depth tree cwd root []
  | noSection {b : ByteArray} {document : Table}
    (read : tree.read cwd (root.join (Path.ofString filename)) = .ok b)
    (readable : Configuration.readToml depth b = .ok document)
    (absent : section? document = none) : HasSection depth tree cwd root []

section Fields

variable {α : Type} {check : Value → Checked α} {key : String} {t : Table}

theorem eq_said_of_withDefault {absent a : α}
    (checked : withDefault check key absent (plainKeys t) = .ok a) :
    a = (said check key t).getD absent := by
  unfold withDefault at checked
  rw [get?_plainKeys] at checked
  unfold said
  cases found : lastUnder key t with
  | none =>
    rw [found] at checked
    exact (Except.ok.inj checked).symm
  | some v =>
    rw [found] at checked
    simp [(Checked.under_eq_ok _ _ _).mp checked, Except.toOption]

/-- A setting that may be nothing is what the section says of it: nothing is no value of its own. -/
theorem eq_said_of_optional (refused : (check .null).toOption = none) {a : Option α}
    (checked : withDefault (Schema.optional check) key none (plainKeys t) = .ok a) :
    a = said check key t := by
  have known := eq_said_of_withDefault checked
  rw [known, said, said]
  cases lastUnder key t with
  | none => rfl
  | some v =>
    cases v with
    | null => exact refused.symm
    | _ => simp only [Option.bind_some, Schema.optional]; cases check _ <;> rfl

end Fields

variable {depth : Nat} {tree : FileTree} {cwd : Location} {root : Path} {t : Table}

/-- Settings that are read from a section are what it says. -/
theorem eq_ofSaid {s : Settings} (checked : ofTable (plainKeys t) = .ok s) : s = ofSaid t := by
  have noPath : (pathOfValue .null).toOption = none := rfl
  have noLimit : (positiveFloat .null).toOption = none := rfl
  have noTexts : (texts .null).toOption = none := rfl
  simp only [ofTable, Checked.apply_eq_ok] at checked
  -- The fields from the last one back to the first.
  obtain ⟨_, _, ⟨_, _, ⟨_, _, ⟨_, _, ⟨_, _, ⟨_, _, ⟨_, _, ⟨_, _, ⟨_, _, ⟨_, _, same, reporter, rfl⟩,
    reportLimit, rfl⟩, failsRun, rfl⟩, summarizes, rfl⟩, rules, rfl⟩, filename, rfl⟩,
    configuration, rfl⟩, limit, rfl⟩, command, rfl⟩, -, rfl⟩ := checked
  obtain rfl := eq_said_of_withDefault reporter
  obtain rfl := eq_said_of_withDefault reportLimit
  obtain rfl := eq_said_of_withDefault failsRun
  obtain rfl := eq_said_of_withDefault summarizes
  obtain rfl := eq_said_of_optional noPath rules
  obtain rfl := eq_said_of_withDefault filename
  obtain rfl := eq_said_of_optional noPath configuration
  obtain rfl := eq_said_of_optional noLimit limit
  obtain rfl := eq_said_of_optional noTexts command
  cases Except.ok.inj same
  rfl

/-- An empty section leaves all settings at their defaults. -/
theorem ofSaid_nil : (ofSaid []).within root = default := rfl

/-- The settings of a project with a section that can be read are what the section says, with its
paths seen from the root. -/
theorem load_of_hasSection [Wording] (has : HasSection depth tree cwd root t)
    (valid : (ofTable (plainKeys t)).isOk = true) :
    load depth tree cwd root = .ok ((ofSaid t).within root) := by
  cases has with
  | table stands =>
    cases checked : ofTable (plainKeys t) with
    | ok s =>
      rw [load_of_isSection stands, ← eq_ofSaid checked]
      unfold ofSection
      dsimp only
      rw [checked]
    | error ds =>
      rw [checked] at valid
      cases valid
  | noFile absent => simp only [load, absent, ofSaid_nil]
  | noSection read readable absent =>
    simp only [load, FileTree.isFile_of_read read, read, ofBytes, readable, absent, ofSaid_nil]

end LintRun.Settings
