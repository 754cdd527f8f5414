import LintRun.Excess
import LintRun.Finding
import LintRun.Json.Printer
import LintRun.Path
import LintRun.Text.Quoted
import LintRun.Text.Utf8

/-!
# Errors

Everything that can end a run, or the handling of one file, as causes. `Error.message` is the one
place where they are put into words. What is wrong with a text that is no TOML, or with a value that
does not have the shape of its schema, is said by whoever reads the one or checks the other
(`Wording`), and an error carries these words. It carries the list of schema defects as well.
-/
namespace LintRun

/-- How those who read TOML and check values put into words what they refuse. -/
class Wording where
  /-- A text that is no TOML. -/
  toml (text : String) : String
  /-- The text of a payload that is no list of findings. -/
  payload (output : String) : String
  /-- A section of settings, with plain keys. -/
  settings (t : Table) : String
  /-- A value given for options. -/
  options (v : Value) : String

/-- The wording for where nobody is there to say anything: a mark stands for the words. -/
@[reducible] def Wording.leftOut : Wording :=
  ⟨fun _ => "<toml>", fun _ => "<details>", fun _ => "<details>", fun _ => "<details>"⟩

/-- What the file system refuses. -/
inductive SystemProblem where
  | noEntry
  | notDirectory
  | isDirectory
  | linkLoop
  | notAllowed
  | notProgram
  | nameTooLong
  deriving DecidableEq, Repr

/-- A refusal, with the path as it was asked for. -/
structure SystemError where
  problem : SystemProblem
  path : String
  deriving DecidableEq, Repr

def SystemProblem.number : SystemProblem → Nat
  | .noEntry => 2
  | .notDirectory => 20
  | .isDirectory => 21
  | .linkLoop => 40
  | .notAllowed => 13
  | .notProgram => 8
  | .nameTooLong => 36

def SystemProblem.words : SystemProblem → String
  | .noEntry => "No such file or directory"
  | .notDirectory => "Not a directory"
  | .isDirectory => "Is a directory"
  | .linkLoop => "Too many levels of symbolic links"
  | .notAllowed => "Permission denied"
  | .notProgram => "Exec format error"
  | .nameTooLong => "File name too long"

def SystemProblem.isMissing : SystemProblem → Bool
  | .noEntry | .notDirectory => true
  | _ => false

def SystemError.message (e : SystemError) : String :=
  s!"[Errno {e.problem.number}] {e.problem.words}: {Text.quoted e.path}"

/-- Why a file cannot be reached: the file system refuses, or it cannot even be asked. -/
inductive AccessProblem where
  | system (e : SystemError)
  | nulCharacter
  deriving DecidableEq, Repr

def AccessProblem.message : AccessProblem → String
  | .system e => e.message
  | .nulCharacter => "embedded null byte"

inductive ReadProblem where
  | access (p : AccessProblem)
  | utf8 (f : Text.Utf8.Fault)
  | json (words : String)
  | toml (words : String)
  | excess (x : Excess)
  deriving DecidableEq, Repr

def ReadProblem.message : ReadProblem → String
  | .access p => p.message
  | .utf8 f => f.message
  | .json words | .toml words => words
  | .excess x => x.message

/-- What can be wrong with configuration files and settings. -/
inductive ConfigProblem where
  /-- The text of a configuration file cannot be used. -/
  | unusable (path : String) (why : ReadProblem)
  /-- A configuration file holds something else than a table. -/
  | notTable (path : String)
  /-- The text of the project file cannot be used. -/
  | projectUnusable (path : String) (why : ReadProblem)
  /-- The settings in the project file are not a table. -/
  | sectionNotTable (path : String)
  /-- The settings in the project file have defects. -/
  | sectionInvalid (path words : String) (details : List Schema.Detail)
  /-- What a part supplied from outside says. -/
  | stated (words : String)
  deriving DecidableEq, Repr

def ConfigProblem.message : ConfigProblem → String
  | .unusable path why => s!"Unable to load configuration from {path}: {why.message}"
  | .notTable path => s!"Configuration at {path} must be a table"
  | .projectUnusable path why => s!"Unable to read {path}: {why.message}"
  | .sectionNotTable path => s!"[tool.lintstream] in {path} must be a table"
  | .sectionInvalid path words _ => s!"Invalid [tool.lintstream] settings in {path}: {words}"
  | .stated words => words

inductive EngineProblem where
  /-- A payload is no list of findings. -/
  | badPayload (format words : String) (details : List Schema.Detail)
  /-- The engine failed on a file. -/
  | failed (relative cause : String)
  /-- The engine gave back something that is no payload. -/
  | unexpected (relative shown : String)
  /-- The linter command could not be started. -/
  | notStarted (cause : String)
  /-- The linter command printed no payload; the details say why what it printed is none. -/
  | noPayload (status : Int) (relative complaint : String) (details : Option (List Schema.Detail))
  /-- What a part supplied from outside says. -/
  | stated (words : String)
  deriving DecidableEq, Repr

def EngineProblem.message : EngineProblem → String
  | .badPayload format words _ => s!"Linter produced an invalid {format} payload: {words}"
  | .failed relative cause => s!"Linter failed on {relative}: {cause}"
  | .unexpected relative shown => s!"Linter returned an unexpected result for {relative}: {shown}"
  | .notStarted cause => s!"Unable to run linter command: {cause}"
  | .noPayload status relative complaint _ =>
    s!"Linter command exited with status {status} without JSON output for {relative}. stderr: "
      ++ (if complaint = "" then "<none>" else complaint)
  | .stated words => words

inductive ReporterProblem where
  | unknownName (name : String) (known : List String)
  | unusable (shown : String)
  | stated (words : String)
  deriving DecidableEq, Repr

def ReporterProblem.message : ReporterProblem → String
  | .unknownName name known =>
    s!"Unknown reporter '{name}'; expected one of: " ++ String.intercalate ", " known
  | .unusable shown => s!"Reporter must be a reporter name or a callable, got {shown}"
  | .stated words => words

/-- The kinds of ordinary errors that parts supplied from outside may end with. -/
inductive OutsideKind where
  | runtime
  | value
  | system
  | timeout
  | key
  | type
  | missingFile
  | recursion
  deriving DecidableEq, Repr

/-- An ordinary error of a part supplied from outside. -/
structure Fault where
  kind : OutsideKind
  words : String
  deriving DecidableEq, Repr

/-- The final message of a failed run, with the findings it covers. -/
structure Summary where
  message : String
  findings : List Finding
  ignored : Nat
  deriving DecidableEq, Repr

/-- Everything that ends a run or the handling of one file. -/
inductive Error where
  /-- An ordinary error of a part supplied from outside. -/
  | outside (kind : OutsideKind) (words : String)
  /-- The run was cancelled; this is not an ordinary error. -/
  | cancelled (words : String)
  /-- The file system refused. -/
  | system (e : SystemError)
  /-- The bytes of the project file are not UTF-8. -/
  | undecodable (f : Text.Utf8.Fault)
  /-- A value does not have the shape that its schema asks for. -/
  | invalid (words : String) (details : List Schema.Detail)
  | config (p : ConfigProblem)
  /-- The configuration for a file cannot be found out. -/
  | resolution (path cause : String)
  | engine (p : EngineProblem)
  /-- A file arrives in a form that cannot be linted. -/
  | unsupported (words : String)
  /-- A phase took longer than allowed. -/
  | overtime (path phase : String) (limit : Float)
  | reporter (p : ReporterProblem)
  /-- The verdict on a run with findings. -/
  | failedRun (s : Summary)

namespace Error

def message : Error → String
  | .outside .key words => Text.quoted words
  | .outside _ words => words
  | .cancelled words => words
  | .system e => e.message
  | .undecodable f => f.message
  | .invalid words _ => words
  | .config p => p.message
  | .resolution path cause => s!"Unable to resolve lint configuration for {path}: {cause}"
  | .engine p => p.message
  | .unsupported words => words
  | .overtime path phase limit =>
    s!"{phase} for {path} timed out after {Decimal.compactText limit}s"
  | .reporter p => p.message
  | .failedRun s => s.message

def ofFault (f : Fault) : Error := .outside f.kind f.words

def ofAccess : AccessProblem → Error
  | .system e => .system e
  | .nulCharacter => .outside .value AccessProblem.nulCharacter.message

def ofExcess (x : Excess) : Error :=
  .outside (if x matches .digits _ | .spelling then .value else .recursion) x.message

def ofUnwritable : Json.Unwritable → Error
  | .moment m => .outside .type s!"Object of type {m.kind} is not JSON serializable"
  | .excess x => .ofExcess x

def details? : Error → Option (List Schema.Detail)
  | .invalid _ ds => some ds
  | .config (.sectionInvalid _ _ ds) => some ds
  | .engine (.badPayload _ _ ds) => some ds
  | .engine (.noPayload _ _ _ ds) => ds
  | _ => none

def path? : Error → Option Path
  | .resolution path _ => some (Path.ofString path)
  | .overtime path _ _ => some (Path.ofString path)
  | _ => none

/-- The errors of the program itself, told apart from those of its surroundings. -/
def isOwn : Error → Bool
  | .outside .. | .cancelled _ | .system _ | .undecodable _ | .invalid .. => false
  | _ => true

end Error

end LintRun
