import LintRun.Configuration

/-!
# Project settings

The settings of a project stand in the section `tool.lintstream` of its project file. Dashes and
low lines in keys are the same, unknown keys are refused, and relative paths are seen from the
directory of the project. Without the file or the section all settings have their defaults.
-/
namespace LintRun

open Schema

structure Settings where
  reporter : String
  reportLimit : Int
  failsRun : Bool
  summarizes : Bool
  rulesDirectory : Option Path
  configFilename : String
  configuration : Option Path
  limit : Option Float
  /-- The words of the linter command. -/
  command : Option (List String)

namespace Settings

variable [Wording]

def filename : String := "pyproject.toml"

def default : Settings :=
  ⟨"prose", 0, true, false, none, defaultConfigFilename, none, none, none⟩

/-- The keys of settings, in the order in which their defects are told. -/
def keys : List String :=
  ["reporter", "report_limit", "emit_error", "summarize_failure_output", "rules_directory",
    "config_filename", "configuration", "timeout", "command"]

/-- A key with low lines for dashes. -/
def plainKey (key : String) : String := key.map fun c => if c = '-' then '_' else c

/-- Entries under plain keys; of two with the same plain key the later one counts. -/
def plainKeys (t : Table) : Table := Entries.ofList (t.map fun (k, v) => (plainKey k, v))

def unknownKeys (t : Table) : Checked Unit :=
  match t.filter fun e => !keys.contains e.1 with
  | [] => .ok ()
  | unknown => .error (unknown.map fun e => ⟨.unknownKey, [.key e.1]⟩)

def ofTable (t : Table) : Checked Settings :=
  Checked.apply (Checked.apply (Checked.apply (Checked.apply (Checked.apply (Checked.apply
    (Checked.apply (Checked.apply (Checked.apply (Checked.apply
    (.ok fun a b c d e f g h i _ => ⟨a, b, c, d, e, f, g, h, i⟩)
    (withDefault text "reporter" "prose" t))
    (withDefault int "report_limit" 0 t))
    (withDefault bool "emit_error" true t))
    (withDefault bool "summarize_failure_output" false t))
    (withDefault (optional pathOfValue) "rules_directory" none t))
    (withDefault text "config_filename" defaultConfigFilename t))
    (withDefault (optional pathOfValue) "configuration" none t))
    (withDefault (optional positiveFloat) "timeout" none t))
    (withDefault (optional texts) "command" none t))
    (unknownKeys t)

/-- The settings with their paths seen from a directory. -/
def within (root : Path) (s : Settings) : Settings :=
  { s with
    rulesDirectory := s.rulesDirectory.map root.join
    configuration := s.configuration.map root.join }

/-- The section of a project file with the settings, if there is one. -/
def section? (document : Table) : Option Value :=
  match Entries.get? "tool" document with
  | some (.table tool) => Entries.get? "lintstream" tool
  | _ => none

def ofSection (root file : Path) : Value → Except Error Settings
  | .table t =>
    match ofTable (plainKeys t) with
    | .ok s => .ok (s.within root)
    | .error ds =>
      .error (.config (.sectionInvalid file.toString (Wording.settings (plainKeys t)) ds))
  | _ => .error (.config (.sectionNotTable file.toString))

/-- The settings in the bytes of a project file, with values that are nested at most so deep. -/
def ofBytes (depth : Nat) (root file : Path) (b : ByteArray) : Except Error Settings :=
  match Configuration.readToml depth b with
  | .error (.utf8 f) => .error (.undecodable f)
  | .error (.excess x) => .error (.ofExcess x)
  | .error why => .error (.config (.projectUnusable file.toString why))
  | .ok document =>
    match section? document with
    | none => .ok default
    | some v => ofSection root file v

def load (depth : Nat) (tree : FileTree) (cwd : Location) (root : Path) : Except Error Settings :=
  let file := root.join (Path.ofString filename)
  match tree.isFile cwd file with
  | .error e => .error (.system e)
  | .ok false => .ok default
  | .ok true =>
    match tree.read cwd file with
    | .error problem => .error (.config (.projectUnusable file.toString (.access problem)))
    | .ok b => ofBytes depth root file b

end Settings

end LintRun
