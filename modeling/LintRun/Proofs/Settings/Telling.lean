import Mathlib
import LintRun.Proofs.FileTree.Writing
import LintRun.Proofs.Settings
import LintRun.Proofs.Text.Characters

/-!
# What is told of a project file

Loading settings ends with settings, or a problem of the configuration is told, exactly if the bytes
of the project file spell a text that does not ask for too much (`settings_or_problem`). Of a
configuration file with the same bytes a problem is told also if they spell no text.
-/
namespace LintRun

/-- What can be read is a file. -/
theorem FileTree.isFile_of_read {tree : FileTree} {cwd : Location} {p : Path} {b : ByteArray}
    (read : tree.read cwd p = .ok b) : tree.isFile cwd p = .ok true := by
  unfold FileTree.read at read
  unfold FileTree.isFile
  split at read
  · cases read
  · next named =>
    rw [if_neg named]
    split at read
    · rfl
    · cases read
    · cases read

namespace Configuration

/-- The bytes of a TOML file spell a text, and the text does not ask for too much. -/
def IsWithinLimits (depth : Nat) (b : ByteArray) : Prop :=
  ∃ text, Text.Utf8.decode b = .ok text ∧ ∀ x, Toml.read depth text ≠ .error (.excess x)

variable [Wording]

/-- What becomes of the bytes of a TOML file. -/
inductive TomlOutcome (depth : Nat) (b : ByteArray) : Except ReadProblem Table → Prop where
  | undecodable {fault : Text.Utf8.Fault} (faulty : Text.Utf8.decode b = .error fault) :
    TomlOutcome depth b (.error (.utf8 fault))
  | excess {text : String} {x : Excess} (decoded : Text.Utf8.decode b = .ok text)
    (exceeds : Toml.read depth text = .error (.excess x)) : TomlOutcome depth b (.error (.excess x))
  | malformed {text : String} (decoded : Text.Utf8.decode b = .ok text)
    (mistaken : Toml.read depth text = .error .malformed) :
    TomlOutcome depth b (.error (.toml (Wording.toml text)))
  | table {text : String} {t : Table} (decoded : Text.Utf8.decode b = .ok text)
    (read : Toml.read depth text = .ok t) : TomlOutcome depth b (.ok t)

variable {depth : Nat} {b : ByteArray}

theorem tomlOutcome_readToml (depth : Nat) (b : ByteArray) :
    TomlOutcome depth b (readToml depth b) := by
  unfold readToml
  split
  · next fault faulty => exact .undecodable faulty
  · next text decoded =>
    split
    · next t read => exact .table decoded read
    · next x exceeds => exact .excess decoded exceeds
    · next mistaken => exact .malformed decoded mistaken

/-- Bytes are within limits if their text is read, or has a mistake. -/
theorem isWithinLimits_iff :
    IsWithinLimits depth b ↔
      (∃ t, readToml depth b = .ok t) ∨ ∃ words, readToml depth b = .error (.toml words) := by
  have outcome := tomlOutcome_readToml depth b
  generalize readToml depth b = read at outcome
  cases outcome with
  | undecodable faulty => simp [IsWithinLimits, faulty]
  | excess decoded exceeds => simp [IsWithinLimits, decoded, exceeds]
  | malformed decoded mistaken => simp [IsWithinLimits, decoded, mistaken]
  | table decoded read => simp [IsWithinLimits, decoded, read]

/-- A problem is told of a configuration file in TOML if its bytes spell no text, or the text has a
mistake. -/
theorem load_toml_eq_config_iff {tree : FileTree} {cwd : Location} {p : Path}
    (toml : p.suffix = tomlSuffix) (read : tree.read cwd p = .ok b) :
    (∃ why, load depth tree cwd p = .error (.config why)) ↔
      (∃ fault, Text.Utf8.decode b = .error fault) ∨
        ∃ words, readToml depth b = .error (.toml words) := by
  have loaded : readFile depth tree cwd p = (readToml depth b).map .table := by
    rw [readFile, read]
    exact if_pos toml
  have outcome := tomlOutcome_readToml depth b
  unfold load
  rw [loaded]
  generalize readToml depth b = found at outcome
  cases outcome with
  | undecodable faulty => simp [Except.map, unusable, faulty]
  | excess decoded exceeds => simp [Except.map, unusable, Error.ofExcess, decoded]
  | malformed decoded mistaken => simp [Except.map, unusable]
  | table decoded read => simp [Except.map, decoded]

end Configuration

namespace Settings

open LintRun.Configuration (IsWithinLimits readToml TomlOutcome tomlOutcome_readToml)

/-- Settings are there, or a problem of the configuration is told. -/
def IsTold (outcome : Except Error Settings) : Prop :=
  (∃ s, outcome = .ok s) ∨ ∃ p, outcome = .error (.config p)

section Bytes

variable [Wording] {depth : Nat} {b : ByteArray} (root file : Path)

theorem isTold_ofSection (v : Value) : IsTold (ofSection root file v) := by
  unfold ofSection
  split
  · split
    · exact .inl ⟨_, rfl⟩
    · exact .inr ⟨_, rfl⟩
  · exact .inr ⟨_, rfl⟩

/-- A project file that is TOML is not told to be unusable. -/
theorem ofSection_ne_unusable (v : Value) (path : String) (why : ReadProblem) :
    ofSection root file v ≠ .error (.config (.projectUnusable path why)) := by
  unfold ofSection
  split
  · split <;> simp
  · simp

theorem isTold_ofBytes_iff : IsTold (ofBytes depth root file b) ↔ IsWithinLimits depth b := by
  rw [Configuration.isWithinLimits_iff]
  unfold ofBytes
  have outcome := tomlOutcome_readToml depth b
  generalize readToml depth b = read at outcome
  cases outcome with
  | undecodable => simp [IsTold]
  | excess => simp [IsTold, Error.ofExcess]
  | malformed => simp [IsTold]
  | @table _ t =>
    refine iff_of_true ?_ (.inl ⟨t, rfl⟩)
    dsimp only
    split
    · exact .inl ⟨_, rfl⟩
    · exact isTold_ofSection root file _

/-- A project file is told to be unusable if its text has a mistake. -/
theorem ofBytes_eq_unusable_iff :
    (∃ why, ofBytes depth root file b = .error (.config (.projectUnusable file.toString why))) ↔
      ∃ words, readToml depth b = .error (.toml words) := by
  unfold ofBytes
  have outcome := tomlOutcome_readToml depth b
  generalize readToml depth b = read at outcome
  cases outcome with
  | undecodable => simp
  | excess => simp [Error.ofExcess]
  | malformed => simp
  | table =>
    refine iff_of_false ?_ (by simp)
    rintro ⟨why, failed⟩
    dsimp only at failed
    split at failed
    · cases failed
    · exact ofSection_ne_unusable root file _ _ _ failed

end Bytes

/-- If the project file has these bytes, there are settings, or a problem of the configuration is
told, exactly if the bytes spell a text that does not ask for too much; else it is the fault in the
bytes, or the excess. Of a configuration file in TOML with the same bytes a problem is told if the
project file is told to be unusable, and also if the bytes spell no text. -/
theorem settings_or_problem [Wording] (depth : Nat) (tree : FileTree) (cwd : Location) (root : Path)
    (b : ByteArray) (read : tree.read cwd (root.join (Path.ofString filename)) = .ok b) :
    let file := root.join (Path.ofString filename)
    let outcome := load depth tree cwd root
    (IsTold outcome ↔ IsWithinLimits depth b) ∧
      (∀ fault, Text.Utf8.decode b = .error fault → outcome = .error (.undecodable fault)) ∧
      (∀ text x, Text.Utf8.decode b = .ok text → Toml.read depth text = .error (.excess x) →
        outcome = .error (.ofExcess x)) ∧
      ∀ p, p.suffix = Configuration.tomlSuffix → tree.read cwd p = .ok b →
        ((∃ why, Configuration.load depth tree cwd p = .error (.config why)) ↔
          (∃ why, outcome = .error (.config (.projectUnusable file.toString why))) ∨
            ∃ fault, Text.Utf8.decode b = .error fault) := by
  intro file outcome
  have there := FileTree.isFile_of_read read
  have loaded : outcome = ofBytes depth root file b := by
    simp only [outcome, load, there, read, file]
  refine ⟨?_, ?_, ?_, ?_⟩
  · rw [loaded]
    exact isTold_ofBytes_iff root file
  · intro fault faulty
    exact load_of_untold (.undecodable there b read fault faulty)
  · intro text x decoded exceeds
    exact load_of_untold (.excess there b read text decoded x exceeds)
  · intro p toml same
    rw [loaded, Configuration.load_toml_eq_config_iff toml same, ofBytes_eq_unusable_iff, or_comm]

section Sample

open FileTree

attribute [local instance] Wording.leftOut

/-- A tree with a project file of these bytes in its root. -/
def projectTree (b : ByteArray) : FileTree := ⟨[([filename], .file b false)]⟩

def projectFile : Path := ⟨.root, [filename]⟩

theorem join_projectFile : Path.join ⟨.root, []⟩ (Path.ofString filename) = projectFile := by
  decide

theorem read_projectTree (b : ByteArray) : (projectTree b).read [] projectFile = .ok b := by
  have walked : (projectTree b).walk [] projectFile.toString = .ok ([filename], .file b false) :=
    walk_of_leads (by decide) (by decide) (.file (by decide) rfl) (Nat.zero_le linkLimit)
  have noNul : projectFile.holdsNul = false := by decide
  rw [FileTree.read, noNul, walked]
  rfl

/-- A text that is no TOML is told of as project file and as configuration file. -/
theorem settings_or_problem_malformed :
    let tree := projectTree (Text.Utf8.encode "x")
    tree.read [] (Path.join ⟨.root, []⟩ (Path.ofString filename)) =
        .ok (Text.Utf8.encode "x") ∧
      IsTold (load Depth.alone tree [] ⟨.root, []⟩) ∧
      ((∃ why, Configuration.load Depth.alone tree [] projectFile = .error (.config why)) ↔
        ∃ why, load Depth.alone tree [] ⟨.root, []⟩ =
          .error (.config (.projectUnusable projectFile.toString why))) := by
  intro tree
  have read := read_projectTree (Text.Utf8.encode "x")
  have decoded : Text.Utf8.decode (Text.Utf8.encode "x") = .ok "x" := Text.Utf8.decode_encode "x"
  have malformed : Toml.read Depth.alone "x" = .error .malformed := by cbv
  obtain ⟨told, -, -, both⟩ :=
    settings_or_problem Depth.alone tree [] ⟨.root, []⟩ _ (join_projectFile ▸ read)
  refine ⟨join_projectFile ▸ read, told.mpr ⟨"x", decoded, by simp [malformed]⟩, ?_⟩
  rw [both projectFile (by decide) read, join_projectFile]
  simp [decoded]

/-- A project file that is not UTF-8 is not told of, though it is as a configuration file. -/
theorem undecodable_project_untold :
    let tree := projectTree ⟨#[0xff]⟩
    tree.read [] (Path.join ⟨.root, []⟩ (Path.ofString filename)) = .ok ⟨#[0xff]⟩ ∧
      load Depth.alone tree [] ⟨.root, []⟩ = .error (.undecodable ⟨0, [0xff], .invalidStart⟩) ∧
      ¬ IsTold (load Depth.alone tree [] ⟨.root, []⟩) ∧
      ∃ why, Configuration.load Depth.alone tree [] projectFile = .error (.config why) := by
  intro tree
  have read := read_projectTree ⟨#[0xff]⟩
  have faulty : Text.Utf8.decode ⟨#[0xff]⟩ = .error ⟨0, [0xff], .invalidStart⟩ := by
    decide +kernel
  have there := FileTree.isFile_of_read read
  have loaded : load Depth.alone tree [] ⟨.root, []⟩ =
      .error (.undecodable ⟨0, [0xff], .invalidStart⟩) := by
    refine load_of_untold (.undecodable ?_ ⟨#[0xff]⟩ ?_ _ faulty)
    · rwa [join_projectFile]
    · rwa [join_projectFile]
  refine ⟨join_projectFile ▸ read, loaded, ?_, ?_⟩
  · rw [loaded]
    simp [IsTold]
  · exact (Configuration.load_toml_eq_config_iff (by decide) read).mpr (.inl ⟨_, faulty⟩)

end Sample

end Settings

end LintRun
