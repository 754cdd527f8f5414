import LintRun.FileTree
import LintRun.Schema

/-!
# Arguments

The command line names the command `check`, options and files. Options may stand anywhere; a value
follows its option or is joined to it, two dashes end the options, and of an option given twice the
last one counts. What does not fit this form is a usage error, whatever it is. What a text says that
stands for a number, a path or a file is up to a reader.
-/
namespace LintRun.CommandLine

/-- The options that take a value. -/
inductive ValueOption where
  | root
  | reporter
  | reportLimit
  | configuration
  | configFilename
  | rulesDirectory
  | limit
  | command
  deriving DecidableEq, Repr

inductive Switch where
  | failsRun
  | passesRun
  | summarizes
  | showsDebug
  deriving DecidableEq, Repr

def ValueOption.ofName? : String → Option ValueOption
  | "--root" => some .root
  | "--reporter" => some .reporter
  | "--report-limit" => some .reportLimit
  | "--config" => some .configuration
  | "--config-filename" => some .configFilename
  | "--rules-dir" => some .rulesDirectory
  | "--timeout" => some .limit
  | "--command" => some .command
  | _ => none

def Switch.ofName? : String → Option Switch
  | "--emit-error" => some .failsRun
  | "--no-emit-error" => some .passesRun
  | "--summarize" => some .summarizes
  | "--debug" => some .showsDebug
  | _ => none

inductive Item where
  | value (o : ValueOption) (text : String)
  | switch (s : Switch)
  | file (text : String)
  deriving DecidableEq, Repr

/-- What a single argument is: an item, an option whose value is the next argument, or nothing. -/
inductive Argument where
  | item (i : Item)
  | awaits (o : ValueOption)
  | unknown

/-- An argument with a name and perhaps a value joined to it by a sign of equality. -/
def namedArgument? (name : String) (joined : Option String) : Option Argument :=
  match ValueOption.ofName? name, joined with
  | some o, some text => some (.item (.value o text))
  | some o, none => some (.awaits o)
  | none, _ =>
    match Switch.ofName? name, joined with
    | some s, none => some (.item (.switch s))
    | some _, some _ => some .unknown
    | none, _ => none

/-- An argument after one dash; the only short option stands for the root. -/
def shortArgument : List Char → Argument
  | ['r'] => .awaits .root
  | 'r' :: text => .item (.value .root (String.ofList text))
  | _ => .unknown

def Argument.ofText (text : String) : Argument :=
  match text.toList with
  | '-' :: c :: rest =>
    let name := (c :: rest).takeWhile (· != '=')
    let joined := ((c :: rest).drop name.length).tail?
    match namedArgument? (String.ofList ('-' :: name)) (joined.map String.ofList) with
    | some a => a
    | none => if c = '-' then .unknown else shortArgument (c :: rest)
  | _ => .item (.file text)

/-- The items in arguments; `pending` is the option that waits for its value. -/
def items (pending : Option ValueOption) : List String → Option (List Item)
  | [] => if pending.isSome then none else some []
  | text :: rest =>
    match pending with
    | some o => (items none rest).map (.value o text :: ·)
    | none =>
      if text = "--" then some (rest.map .file)
      else
        match Argument.ofText text with
        | .item i => (items none rest).map (i :: ·)
        | .awaits o => items (some o) rest
        | .unknown => none

/-- How texts on a command line are read. -/
structure Reader where
  /-- An integer. -/
  int? : String → Option Int
  /-- A number that is not less than a bound. -/
  float? : Float → String → Option Float
  /-- Whether a text will do for a path. -/
  takesPath : String → Bool
  /-- Whether a text names a file. -/
  takesFile : String → Bool

def leastLimit : Float := 0.001

namespace Reader

variable (c : Reader)

/-- A time limit on the command line, in seconds. -/
def limit? (s : String) : Option Float := c.float? leastLimit s

def path? (s : String) : Option Path := if c.takesPath s then some (Path.ofString s) else none

/-- The reader that takes numbers as settings do, and the files of a tree. -/
def ofTree (tree : FileTree) (cwd : Location) : Reader where
  int? s := (Schema.int (.text s)).toOption
  float? least s := (Schema.float (.text s)).toOption.filter fun x => least ≤ x
  takesPath s := !(Path.ofString s).holdsNul
  takesFile s := (tree.isFile cwd (Path.ofString s)).toOption = some true

end Reader

structure Arguments where
  files : List Path
  root : Option Path
  reporter : Option String
  reportLimit : Option Int
  failsRun : Option Bool
  summarizes : Bool
  configuration : Option Path
  configFilename : Option String
  rulesDirectory : Option Path
  limit : Option Float
  command : Option String
  showsDebug : Bool

/-- The value that items give to an option; the last one counts. -/
def valueOf (o : ValueOption) (is : List Item) : Option String :=
  is.foldl (fun found i =>
    match i with
    | .value p text => if p = o then some text else found
    | _ => found) none

/-- Whether items let findings fail the run; the last switch for it counts. -/
def failsRunOf (is : List Item) : Option Bool :=
  is.foldl (fun found i =>
    match i with
    | .switch .failsRun => some true
    | .switch .passesRun => some false
    | _ => found) none

def filesOf (is : List Item) : List String :=
  is.filterMap fun
    | .file text => some text
    | _ => none

def readOption {α : Type} (read : String → Option α) : Option String → Option (Option α)
  | none => some none
  | some text => (read text).map some

namespace Arguments

def ofItems? (c : Reader) (is : List Item) : Option Arguments := do
  let reportLimit ← readOption c.int? (valueOf .reportLimit is)
  let limit ← readOption c.limit? (valueOf .limit is)
  let root ← readOption c.path? (valueOf .root is)
  let configuration ← readOption c.path? (valueOf .configuration is)
  let rulesDirectory ← readOption c.path? (valueOf .rulesDirectory is)
  return {
    files := (filesOf is).map Path.ofString
    root := root
    reporter := valueOf .reporter is
    reportLimit := reportLimit
    failsRun := failsRunOf is
    summarizes := is.contains (.switch .summarizes)
    configuration := configuration
    configFilename := valueOf .configFilename is
    rulesDirectory := rulesDirectory
    limit := limit
    command := valueOf .command is
    showsDebug := is.contains (.switch .showsDebug) }

def commandName : String := "check"

def afterName? : List String → Option (List String)
  | "--" :: name :: rest => if name = commandName then some rest else none
  | name :: rest => if name = commandName then some rest else none
  | [] => none

/-- What a command line tells, unless it is a usage error; at least one file must be named, and all
that is named must be files. -/
def ofList? (c : Reader) (args : List String) : Option Arguments := do
  let rest ← afterName? args
  let is ← items none rest
  let a ← ofItems? c is
  if !(filesOf is).isEmpty && (filesOf is).all c.takesFile then some a else none

end Arguments

end LintRun.CommandLine
