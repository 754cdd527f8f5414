import LintRun.Path
import LintRun.Schema

/-!
# Options

`LintOptions` say how files are linted, `ReportOptions` how findings are reported and judged. Both
are read from tables; keys that they do not know are not looked at.
-/
namespace LintRun

open Schema

/-- A configuration that is given outright: a table, or the file that holds one. -/
inductive ConfigSource where
  | table (t : Table)
  | file (p : Path)

structure LintOptions where
  configuration : Option ConfigSource
  rulesDirectory : Option Path
  configFilename : String
  /-- The seconds that each phase of a file may take. -/
  limit : Option Float

/-- How findings are reported and judged; a limit of zero or less is none. -/
structure ReportOptions where
  failsRun : Bool
  limit : Int
  summarizes : Bool
  deriving DecidableEq, Repr

def defaultConfigFilename : String := "tslint.json"

/-- The configuration that a value gives: nothing, a table, or a path. -/
def ConfigSource.ofValue : Value → Checked (Option ConfigSource)
  | .null => .ok none
  | .table t => .ok (some (.table t))
  | .text s => .ok (some (.file (Path.ofString s)))
  | _ => .error [⟨.tableType, [.key "dict[str,any]"]⟩, ⟨.pathType, [.key "path"]⟩]

def pathOfValue (v : Value) : Checked Path := (path v).map Path.ofString

namespace LintOptions

def default : LintOptions := ⟨none, none, defaultConfigFilename, none⟩

/-- The options in a table; `engineUsable` tells whether an engine given along with them can be
called, if there is one. -/
def ofTable (engineUsable : Option Bool) (t : Table) : Checked LintOptions :=
  let engine : Checked Unit :=
    if engineUsable = some false then .error [⟨.unusable, [.key "engine"]⟩] else .ok ()
  Checked.apply (Checked.apply (Checked.apply (Checked.apply (Checked.apply
    (.ok fun configuration rules _ filename limit => ⟨configuration, rules, filename, limit⟩)
    (withDefault ConfigSource.ofValue "configuration" none t))
    (withDefault (optional pathOfValue) "rules_directory" none t))
    engine)
    (withDefault text "config_filename" defaultConfigFilename t))
    (withDefault (optional positiveFloat) "timeout" none t)

def ofValue (engineUsable : Option Bool) : Value → Checked LintOptions :=
  model (ofTable engineUsable)

end LintOptions

namespace ReportOptions

def default : ReportOptions := ⟨true, 0, false⟩

def ofTable (t : Table) : Checked ReportOptions :=
  Checked.apply (Checked.apply (Checked.apply (.ok ReportOptions.mk)
    (withDefault bool "emit_error" true t))
    (withDefault int "report_limit" 0 t))
    (withDefault bool "summarize_failure_output" false t)

def ofValue : Value → Checked ReportOptions := model ofTable

def toValue (o : ReportOptions) : Value :=
  .table [("emit_error", .bool o.failsRun), ("report_limit", .int o.limit),
    ("summarize_failure_output", .bool o.summarizes)]

end ReportOptions

end LintRun
