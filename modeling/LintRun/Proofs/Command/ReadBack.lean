import LintRun.Configuration
import LintRun.Proofs.Command.Scratch
import LintRun.Proofs.Json.Written

/-!
# Configurations there and back

The configuration of a request is written into the scratch directory of a command as JSON in ASCII,
where no carriage return is left that reading could take for a line end. So a linter that loads the
file has the same table, with its keys in the same order (`configuration_read_back`).
-/
namespace LintRun.Configuration

/-- The value that the bytes of a JSON file spell when so much is tolerated. -/
def readJsonIn (d : Json.Dialect) (b : ByteArray) : Except ReadProblem Value :=
  match Text.Utf8.decode b with
  | .error f => .error (.utf8 f)
  | .ok s =>
    let cs := Text.unifyLineEnds s.toList
    match Json.readChars d cs with
    | .ok v => .ok v
    | .error ⟨.excess x, _⟩ => .error (.excess x)
    | .error f => .error (.json (f.message cs))

theorem readJsonIn_file (depth : Nat) : readJsonIn (.file depth) = readJson depth := rfl

/-- Text without carriage returns is read as it is. -/
theorem unifyLineEnds_of_not_mem (cs : List Char) (none : '\r' ∉ cs) :
    Text.unifyLineEnds cs = cs := by
  induction cs with
  | nil => rfl
  | cons c rest ih =>
    have other : c ≠ '\r' := Ne.symm (List.ne_of_not_mem_cons none)
    have later := ih (List.not_mem_of_not_mem_cons none)
    rw [Text.unifyLineEnds, later]
    · intro more same
      exact absurd same other
    · exact other

section Values

variable {v : Value} (data : Json.IsData v)

include data

/-- A value that is written with a blank after each comma and colon is read from its bytes wherever
there is room for it. -/
theorem readJsonIn_print {d : Json.Dialect} (readable : Json.Readable d 0 v) :
    readJsonIn d (Text.Utf8.encode (Json.print .spaced v)) = .ok v := by
  have noReturn : '\r' ∉ Json.chars .spaced v := fun member =>
    absurd (Json.isPrintable_chars Json.Style.isPrintable_spaced data _ member) (by decide)
  have read := Json.readChars_chars Json.Style.isPlain_spaced v readable
  simp only [readJsonIn, Text.Utf8.decode_encode, Json.print, String.toList_ofList,
    unifyLineEnds_of_not_mem _ noReturn, read]

/-- What can be written so deep is read again where at least as many levels are allowed. -/
theorem readJson_of_encode {depth most : Nat} {text : String} (room : depth ≤ most)
    (encoded : Json.encode? .spaced depth v = .ok text) :
    readJson most (Text.Utf8.encode text) = .ok v := by
  unfold Json.encode? at encoded
  split at encoded
  · cases encoded
  · next writable =>
    obtain rfl := Except.ok.inj encoded
    rw [← readJsonIn_file]
    refine readJsonIn_print data (data.readable_of_writable ?_ ?_ writable)
    · intro n short digits limit
      obtain rfl := Option.some.inj limit
      exact (Decimal.isLong_eq_false_iff_length n).mp short
    · intro levels limit
      obtain rfl := Option.some.inj limit
      omega

end Values

end LintRun.Configuration

namespace LintRun.Command.Machine

open LintRun.FileTree

variable {σ : Type} {m : Machine σ} {tree : FileTree} {r : Request} {depth : Nat}

/-- The suffix of a path is that of its last name. -/
theorem suffix_scratchFile (m : Machine σ) :
    (m.scratchFile configFilename).suffix ≠ Configuration.tomlSuffix := by
  have plain : Path.IsPlain ⟨.relative, [configFilename]⟩ := by decide
  have spot := scratchFile_toString m plain
  rw [toString_configFilename] at spot
  have named : (m.scratchFile configFilename).name = configFilename := by
    rw [spot, Path.name_eq_last rfl]
  rw [Path.suffix, named]
  decide

/-- The bytes of the configuration are read from the filled scratch directory, from wherever the
reader works. -/
theorem read_of_fill (placed : m.IsPlaced) (filled : m.fill depth r = .ok tree) (cwd : Location) :
    ∃ text, Json.encode? .spaced depth (.table r.configuration) = .ok text ∧
      tree.read cwd (m.scratchFile configFilename) = .ok (Text.Utf8.encode text) := by
  obtain ⟨text, encoded, holds, -⟩ := holds_of_fill placed filled
  obtain ⟨u, -, configuration, -, written⟩ := fill_eq_ok.mp filled
  have noNul : (m.scratchFile configFilename).holdsNul = false := by
    unfold writeText at written
    split at written
    · cases written
    · next none => simpa using none
  have spot := scratchFile_toString m holds.plain
  rw [toString_configFilename] at spot
  obtain ⟨x, leads⟩ := holds.leads
  have plain : Path.IsPlain ⟨.root, m.scratch ++ [configFilename]⟩ := placed.plain.join holds.plain
  have walked : tree.walk cwd (Path.mk .root (m.scratch ++ [configFilename])).toString = .ok _ :=
    walk_of_leads plain holds.short leads (Nat.zero_le linkLimit)
  refine ⟨text, encoded, ?_⟩
  rw [FileTree.read, noNul, spot, walked]
  rfl

/-- The table of a request is written as a text that is read as the same table, with the keys in the
same order: whatever its size if the limits on digits and depth are set aside, which alone can keep
it from being written. A linter that loads the file named to it, from wherever it works, has the
table of its request. -/
theorem configuration_read_back [Wording] (r : Request)
    (data : Json.IsData (.table r.configuration)) :
    Configuration.readJsonIn .unlimited
        (Text.Utf8.encode (Json.print .spaced (.table r.configuration))) =
      .ok (.table r.configuration) ∧
    (∀ depth, Json.encode? .spaced depth (.table r.configuration) =
        .ok (Json.print .spaced (.table r.configuration)) ∨
      ∃ x, Json.encode? .spaced depth (.table r.configuration) = .error (.excess x)) ∧
    ∀ (σ : Type) (m : Machine σ) (depth most : Nat) (tree : FileTree) (cwd : Location),
      m.IsPlaced → depth ≤ most → m.fill depth r = .ok tree →
        Configuration.load most tree cwd
          (Path.ofString (m.scratchFile configFilename).toString) = .ok r.configuration := by
  refine ⟨?_, ?_, ?_⟩
  · exact Configuration.readJsonIn_print data (data.readable rfl rfl 0)
  · intro depth
    rw [Json.encode?]
    cases found : Json.firstUnwritable? depth (.table r.configuration) with
    | none => exact .inl rfl
    | some u =>
      obtain ⟨x, rfl⟩ := data.isExcess found
      exact .inr ⟨x, rfl⟩
  · intro σ m depth most tree cwd placed room filled
    obtain ⟨text, encoded, there⟩ := read_of_fill placed filled cwd
    have plain : (m.scratchFile configFilename).IsPlain :=
      placed.plain.join (Path.ofString_isPlain configFilename)
    rw [Path.ofString_toString _ plain, Configuration.load, Configuration.readFile, there]
    dsimp only
    rw [if_neg (suffix_scratchFile m), Configuration.readJson_of_encode data room encoded]

section Sample

attribute [local instance] Wording.leftOut

/-- Keys out of order, an empty one among them, control characters, a line separator, a character
beyond U+FFFF, and a number that fits into no machine word. -/
def nested : Table :=
  [("z\r\n", .list [.null, .bool true, .text "\r\u2028😀\x07", .list []]),
    ("", .table [("b", .int (-(10 ^ 30))), ("a", .table [])])]

def nestedRequest : Request := ⟨"a.ts", "1", nested, none⟩

theorem nested_isData : Json.IsData (.table nested) := by
  refine .table nested (by decide) ?_
  simp only [nested, List.forall_mem_cons]
  refine ⟨.list _ ?_, .table _ (by decide) ?_, by simp⟩
  · simp only [List.forall_mem_cons]
    exact ⟨.null, .bool true, .text _, .list [] (by simp), by simp⟩
  · simp only [List.forall_mem_cons]
    exact ⟨.int _, .table [] (by decide) (by simp), by simp⟩

/-- The configuration that a command finds beside a file. -/
theorem configuration_read_back_nested : Json.IsData (.table nested) ∧ bare.IsPlaced ∧
    Depth.written ≤ Depth.alone ∧
    ∃ tree, bare.fill Depth.written nestedRequest = .ok tree ∧
      Configuration.load Depth.alone tree ["elsewhere"] (Path.ofString "/s/lint-config.json") =
        .ok nested := by
  have usable : IsFileName "a.ts" := ⟨by decide, by decide, by decide, by decide, by decide⟩
  have encoded : Json.encode? .spaced Depth.written (.table nested) =
      .ok (Json.print .spaced (.table nested)) := by
    have writable : Json.firstUnwritable? Depth.written (.table nested) = none := by
      decide +kernel
    rw [Json.encode?, writable]
  obtain ⟨tree, filled⟩ := fill_bare_of (r := nestedRequest) encoded usable (by decide +kernel) (by
    intro x e found
    have absent : FileTree.entry? ⟨[(["s"], .directory),
      (["s", "a.ts"], .file (Text.Utf8.encode "1") x)]⟩ ["s", configFilename] = none := rfl
    exact absurd (absent.symm.trans found) (by simp))
  have named : (bare.scratchFile configFilename).toString = "/s/lint-config.json" := by decide
  have loaded := (configuration_read_back nestedRequest nested_isData).2.2 Unit bare Depth.written
    Depth.alone tree ["elsewhere"] bare_isPlaced (by decide) filled
  exact ⟨nested_isData, bare_isPlaced, by decide, tree, filled, named ▸ loaded⟩

end Sample

end LintRun.Command.Machine
