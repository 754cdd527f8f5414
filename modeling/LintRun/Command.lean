import LintRun.Command.Scratch
import LintRun.Command.Search
import LintRun.Command.Template
import LintRun.Engine

/-!
# Linter commands

An engine that runs a command for each file: it fills a scratch directory with the file and its
configuration, starts the program there, and takes what it prints as the payload. The exit status
counts only when nothing is printed. Output that is no payload is an error that tells the status
and what the program complained about.
-/
namespace LintRun.Command

/-- The start of a program: its arguments, and the files in its working directory. -/
structure Invocation where
  arguments : List String
  files : List (Location × ByteArray)

structure Finished where
  status : Int
  output : ByteArray
  complaint : ByteArray

/-- Where commands run: files, a search path, a place for scratch directories, and the programs
that executable files stand for. -/
structure Machine (σ : Type) where
  space : SearchSpace
  scratch : Location
  programs : Location → Option (Invocation → σ → Call Finished × σ)

/-- The template of a command; without words it is the default one. -/
def templateOf (words : Option (List String)) : List String :=
  match words with
  | none | some [] => defaultTemplate
  | some ws => ws

inductive StartProblem where
  | search (p : SearchProblem)
  | nulCharacter
  | system (e : SystemError)

/-- A start problem as the error of an engine: only a program that is not there, or cannot be
named, counts as not started. -/
def StartProblem.error : StartProblem → Error
  | .search p => .engine (.notStarted p.message)
  | .nulCharacter => .engine (.notStarted AccessProblem.nulCharacter.message)
  | .system e =>
    if e.problem = .noEntry then .engine (.notStarted e.message) else .outside .system e.message

namespace Machine

variable {σ : Type}

def scratchFile (m : Machine σ) (name : String) : Path :=
  (FileTree.pathOf m.scratch).join (Path.ofString name)

/-- The tree with a scratch directory that holds a text and its configuration, which may be nested
so deep. -/
def fill (m : Machine σ) (depth : Nat) (r : Request) : Except Error FileTree := do
  let t := freshDirectory m.space.tree m.scratch
  let t ← (writeText t m.scratch (m.scratchFile (scratchPath r.relative)) r.text).mapError .ofAccess
  let configuration ←
    (Json.encode? .spaced depth (.table r.configuration)).mapError .ofUnwritable
  (writeText t m.scratch (m.scratchFile configFilename) configuration).mapError .ofAccess

def words (m : Machine σ) (template : List String) (r : Request) : List String :=
  expand template ⟨scratchPath r.relative, m.scratchFile configFilename, r.rulesDirectory⟩

/-- The program that lies where a text leads to from the scratch directory. -/
def programAt (m : Machine σ) (t : FileTree) (text : String) :
    Except SystemProblem (Invocation → σ → Call Finished × σ) :=
  match t.walk m.scratch text with
  | .error e => .error e
  | .ok (l, .file _ true) =>
    match m.programs l with
    | some run => .ok run
    | none => .error .notProgram
  | .ok _ => .error .notAllowed

/-- The first of the programs under some texts that is there. If there is none, the first problem
is told that is more than absence, or else the last one. -/
def programAmong (m : Machine σ) (t : FileTree) (told : SystemProblem) :
    List String → Except SystemProblem (Invocation → σ → Call Finished × σ)
  | [] => .error told
  | text :: rest =>
    match m.programAt t text with
    | .ok run => .ok run
    | .error e => programAmong m t (if told.isMissing then e else told) rest

/-- The texts under which the system looks for a program. It goes through the search path again for
one without a slash. -/
def attempts (m : Machine σ) (text : String) : List String :=
  if text.toList.contains '/' then [text]
  else ((splitColons m.space.searchPath.toList).map String.ofList).map (inDirectory · text)

/-- The program that a text names, started from the scratch directory. -/
def program (m : Machine σ) (t : FileTree) (text : String) :
    Except StartProblem (Invocation → σ → Call Finished × σ) :=
  (m.programAmong t .noEntry (m.attempts text)).mapError fun e => .system ⟨e, text⟩

def start (m : Machine σ) (t : FileTree) (words : List String) (s : σ) :
    Except StartProblem (Call Finished × σ) := do
  let located ← ({ m.space with tree := t }.locate words).mapError .search
  if located.any fun w => w.toList.contains '\x00' then .error .nulCharacter
  else
    match located with
    | [] => .error (.search .noWords)
    | text :: arguments =>
      let run ← m.program t text
      return run ⟨arguments, t.filesBelow m.scratch⟩ s

/-- The text that a program is taken to have printed: nothing, with success, stands for no
findings. -/
def printed (f : Finished) : String :=
  let text := Text.trim (Text.Utf8.decodeDropping f.output)
  if text = "" && f.status = 0 then "[]" else text

def judge (relative : String) (f : Finished) : Except Error Payload :=
  let text := printed f
  let complaint := Text.trim (Text.Utf8.decodeDropping f.complaint)
  if text = "" then .error (.engine (.noPayload f.status relative complaint none))
  else
    match Payload.decodeText text with
    | .ok _ => .ok (.ofText text)
    | .error ds => .error (.engine (.noPayload f.status relative complaint (some ds)))

def lint (m : Machine σ) (depth : Nat) (template : List String) (r : Request) (s : σ) :
    Call Answer × σ :=
  match m.fill depth r with
  | .error e => (⟨.error e, 0⟩, s)
  | .ok t =>
    match m.start t (m.words template r) s with
    | .error p => (⟨.error p.error, 0⟩, s)
    | .ok (c, s) =>
      (⟨c.ending.bind fun f => (judge r.relative f).map .payload, c.seconds⟩, s)

/-- The engine that runs a command, for configurations that are nested at most so deep. -/
def engine (m : Machine σ) (depth : Nat) (command : Option (List String)) : Engine σ :=
  .callable (m.lint depth (templateOf command))

end Machine

end LintRun.Command
