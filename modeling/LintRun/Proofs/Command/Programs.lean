import LintRun.Command
import LintRun.Proofs.FileTree.Writing
import LintRun.Proofs.Outcomes

/-!
# The program of a command

The first word of a command is told anew as the text under which its program is found; the others
stay (`located_command`). The text starts at the root if the word does, or if the word is a name
that is found in a directory of the search path which does: then it leads to the same program from
every directory. A name with a slash is told as it is, and one that is found in any other directory
as seen from the working directory, but the program is started in the scratch directory.
-/
namespace LintRun

section Rooted

open LintRun.FileTree

theorem Path.isAbsolute_ofString (s : String) : (Path.ofString s).isAbsolute = isRooted s := by
  have anchored (n : Nat) : (Path.anchorOf n ≠ .relative) ↔ n ≠ 0 := by
    unfold Path.anchorOf
    split <;> simp_all
  rw [Bool.eq_iff_iff, Path.isAbsolute, decide_eq_true_eq, Path.ofString, anchored, isRooted,
    decide_eq_true_eq]
  cases s.toList with
  | nil => simp
  | cons c rest => by_cases slash : c = '/' <;> simp [slash]

/-- A text that starts at the root leads to the same place from everywhere. -/
theorem FileTree.walk_of_isRooted (t : FileTree) {s : String} (rooted : isRooted s = true)
    (here there : Location) : t.walk here s = t.walk there s := by
  unfold FileTree.walk
  rw [if_pos rooted, if_pos rooted]

theorem FileTree.exists_of_isExecutable {t : FileTree} {cwd : Location} {s : String}
    (usable : t.isExecutable cwd s = true) : ∃ l b, t.walk cwd s = .ok (l, .file b true) := by
  unfold FileTree.isExecutable at usable
  split at usable
  · next l b x walked => exact ⟨l, b, usable ▸ walked⟩
  · cases usable

end Rooted

namespace Command

open LintRun.FileTree

/-- In a directory a name starts at the root if the directory does. -/
theorem isRooted_inDirectory (d : String) {name : String} (plain : '/' ∉ name.toList) :
    isRooted (inDirectory d name) = isRooted d := by
  have notRooted : name.toList.head? ≠ some '/' := fun first =>
    plain (List.mem_of_mem_head? first)
  have noSlash : ¬ name.startsWith "/" = true := by
    rw [String.startsWith_string_iff]
    rintro ⟨rest, spelled⟩
    exact notRooted (by rw [← spelled]; rfl)
  unfold inDirectory isRooted
  rw [if_neg noSlash]
  by_cases nothing : d = ""
  · simp [nothing, notRooted]
  · obtain ⟨c, rest, spelled⟩ :=
      List.exists_cons_of_ne_nil (mt String.toList_eq_nil_iff.mp nothing)
    split <;> simp [String.toList_append, spelled]

namespace SearchSpace

variable {s : SearchSpace} {name text : String} {words located : List String}

/-- A directory of the search path is the first one in which a name is an executable file. -/
def FoundIn (s : SearchSpace) (name d : String) : Prop :=
  ∃ before after, directories s.searchPath = before ++ d :: after ∧
    s.tree.isExecutable s.cwd (inDirectory d name) = true ∧
    ∀ other ∈ before, s.tree.isExecutable s.cwd (inDirectory other name) = false

/-- A name with a slash is found as it is, any other in the first directory that has it. -/
theorem find?_eq_some_iff : s.find? name = some text ↔
    ('/' ∈ name.toList ∧ s.tree.isExecutable s.cwd name = true ∧ text = name) ∨
      ('/' ∉ name.toList ∧ ∃ d, s.FoundIn name d ∧ text = inDirectory d name) := by
  unfold find?
  by_cases slash : '/' ∈ name.toList
  · rw [if_pos (List.contains_iff_mem.mpr slash), Option.ite_none_right_eq_some,
      Option.some.injEq]
    constructor
    · exact fun ⟨usable, same⟩ => .inl ⟨slash, usable, same.symm⟩
    · rintro (⟨-, usable, rfl⟩ | ⟨plain, -⟩)
      · exact ⟨usable, rfl⟩
      · exact absurd slash plain
  · rw [if_neg (mt List.contains_iff_mem.mp slash), List.findSome?_eq_some_iff]
    constructor
    · rintro ⟨before, d, after, split, found, others⟩
      obtain ⟨usable, same⟩ := Option.ite_none_right_eq_some.mp found
      obtain rfl := Option.some.inj same
      refine .inr ⟨slash, d, ⟨before, after, split, usable, fun other member => ?_⟩, rfl⟩
      simpa using others other member
    · rintro (⟨there, -⟩ | ⟨-, d, ⟨before, after, split, usable, others⟩, rfl⟩)
      · exact absurd there slash
      · refine ⟨before, d, after, split, if_pos usable, fun other member => ?_⟩
        exact if_neg (by rw [others other member]; exact Bool.false_ne_true)

/-- The text that is found is an executable file. -/
theorem isExecutable_of_find? (found : s.find? name = some text) :
    s.tree.isExecutable s.cwd text = true := by
  rcases find?_eq_some_iff.mp found with ⟨-, usable, rfl⟩ | ⟨-, d, ⟨_, _, -, usable, -⟩, rfl⟩
  · exact usable
  · exact usable

theorem isRooted_of_find? (found : s.find? name = some text) (relative : isRooted name = false) :
    isRooted text = true ↔
      '/' ∉ name.toList ∧ ∃ d, s.FoundIn name d ∧ text = inDirectory d name ∧
        isRooted d = true := by
  rcases find?_eq_some_iff.mp found with ⟨slash, -, rfl⟩ | ⟨plain, d, first, rfl⟩
  · simp [slash, relative]
  · rw [isRooted_inDirectory d plain]
    constructor
    · exact fun rooted => ⟨plain, d, first, rfl, rooted⟩
    · rintro ⟨-, other, -, same, rooted⟩
      rwa [← isRooted_inDirectory d plain, same, isRooted_inDirectory other plain]

theorem locate_eq_ok_iff : s.locate words = .ok located ↔
    ∃ name rest text, words = name :: rest ∧ located = text :: rest ∧
      if isRooted name then text = (Path.ofString name).toString else s.find? name = some text := by
  constructor
  · intro ends
    cases words with
    | nil => cases ends
    | cons name rest =>
      rw [locate, Path.isAbsolute_ofString] at ends
      split at ends
      · next rooted => exact ⟨name, rest, _, rfl, (Except.ok.inj ends).symm, by rw [if_pos rooted]⟩
      · next relative =>
        split at ends
        · next text found =>
          exact ⟨name, rest, text, rfl, (Except.ok.inj ends).symm, by rwa [if_neg relative]⟩
        · cases ends
  · rintro ⟨name, rest, text, rfl, rfl, told⟩
    rw [locate, Path.isAbsolute_ofString]
    split at told
    · next rooted => rw [if_pos rooted, told]
    · next relative => rw [if_neg relative, told]

end SearchSpace

namespace Machine

variable {σ : Type} (m : Machine σ) (t : FileTree) {text : String}

/-- A text with a slash is not looked for in the search path. -/
theorem program_of_slash (slash : '/' ∈ text.toList) :
    m.program t text = (m.programAt t text).mapError fun e => .system ⟨e, text⟩ := by
  have once : m.attempts text = [text] := if_pos (List.contains_iff_mem.mpr slash)
  rw [program, once, programAmong]
  cases m.programAt t text <;> rfl

/-- The place of the scratch directory does not matter to a text that starts at the root. -/
theorem program_of_isRooted (rooted : isRooted text = true) (place : Location) :
    { m with scratch := place }.program t text = m.program t text := by
  have slash : '/' ∈ text.toList := List.mem_of_mem_head? (of_decide_eq_true rooted)
  rw [program_of_slash _ t slash, program_of_slash _ t slash]
  unfold programAt
  dsimp only
  rw [t.walk_of_isRooted rooted place m.scratch]

end Machine

/-- In a command that is located the words behind the first one are those of the command. The first
one starts at the root exactly if it did before, or is a name without a slash that is found in a
directory of the search path which does. Then it names the same program wherever the scratch
directory is; and where it has been looked for, it is the file that was found. -/
theorem located_command (s : SearchSpace) (words located : List String)
    (found : s.locate words = .ok located) :
    ∃ name rest text, words = name :: rest ∧ located = text :: rest ∧
      (isRooted text = true ↔ isRooted name = true ∨
        '/' ∉ name.toList ∧ ∃ d, s.FoundIn name d ∧ text = inDirectory d name ∧
          isRooted d = true) ∧
      (isRooted text = true → ∀ {σ : Type} (m : Machine σ) (t : FileTree) (place : Location),
        { m with scratch := place }.program t text = m.program t text) ∧
      (isRooted text = true → isRooted name = false →
        ∃ l b, ∀ here, s.tree.walk here text = .ok (l, .file b true)) := by
  obtain ⟨name, rest, text, rfl, rfl, told⟩ := SearchSpace.locate_eq_ok_iff.mp found
  refine ⟨name, rest, text, rfl, rfl, ?_⟩
  have same (rooted : isRooted text = true) {σ : Type} (m : Machine σ) (t : FileTree)
      (place : Location) : { m with scratch := place }.program t text = m.program t text :=
    m.program_of_isRooted t rooted place
  cases given : isRooted name with
  | true =>
    rw [given, if_pos rfl] at told
    have absolute : isRooted text = true := by
      rw [told, Path.isRooted_toString _ (Path.ofString_isPlain name), Path.isAbsolute_ofString,
        given]
    exact ⟨by simp [absolute], same, fun _ => nofun⟩
  | false =>
    rw [given, if_neg Bool.false_ne_true] at told
    obtain ⟨l, b, walked⟩ := exists_of_isExecutable (SearchSpace.isExecutable_of_find? told)
    refine ⟨?_, same, fun rooted _ => ⟨l, b, fun here => ?_⟩⟩
    · rw [SearchSpace.isRooted_of_find? told given]
      simp
    · rw [s.tree.walk_of_isRooted rooted here s.cwd, walked]

section Sample

/-- A machine with one program, in a directory of the search path. -/
def withProgram : Machine Unit :=
  ⟨⟨⟨[(["bin", "lint"], .file ByteArray.empty true)]⟩, [], "/bin"⟩, ["s"], fun _ => none⟩

theorem walk_program (anchor : Anchor) :
    withProgram.space.tree.walk [] (Path.toString ⟨anchor, ["bin", "lint"]⟩) =
      .ok (["bin", "lint"], .file ByteArray.empty true) := by
  have short : isLongPath (Path.toString ⟨anchor, ["bin", "lint"]⟩) = false := by
    cases anchor <;> decide
  have plain : Path.IsPlain ⟨anchor, ["bin", "lint"]⟩ := by cases anchor <;> decide
  have leads : Leads withProgram.space.tree 0 [] ["bin", "lint"]
      (["bin", "lint"], .file ByteArray.empty true) :=
    .enter (by decide) rfl (.file (by decide) rfl)
  refine walk_of_leads plain short ?_ (Nat.zero_le linkLimit)
  rwa [ite_self]

/-- A name that is found in a directory which starts at the root. -/
theorem located_command_by_name :
    withProgram.space.locate ["lint", "a.ts"] = .ok ["/bin/lint", "a.ts"] ∧
      isRooted "/bin/lint" = true ∧
      (∀ place, { withProgram with scratch := place }.program withProgram.space.tree "/bin/lint" =
        withProgram.program withProgram.space.tree "/bin/lint") := by
  have walked := walk_program .root
  have text : Path.toString ⟨.root, ["bin", "lint"]⟩ = "/bin/lint" := by decide
  have listed : directories withProgram.space.searchPath = ["/bin"] := by decide
  have named : inDirectory "/bin" "lint" = "/bin/lint" := by decide +kernel
  have usable : withProgram.space.tree.isExecutable withProgram.space.cwd
      (inDirectory "/bin" "lint") = true := by
    rw [named, ← text, isExecutable, show withProgram.space.cwd = [] from rfl, walked]
  have found : withProgram.space.find? "lint" = some "/bin/lint" :=
    SearchSpace.find?_eq_some_iff.mpr
      (.inr ⟨by decide, "/bin", ⟨[], [], listed, usable, nofun⟩, named.symm⟩)
  have located : withProgram.space.locate ["lint", "a.ts"] = .ok ["/bin/lint", "a.ts"] :=
    SearchSpace.locate_eq_ok_iff.mpr
      ⟨"lint", ["a.ts"], "/bin/lint", rfl, rfl, by rw [if_neg (by decide), found]⟩
  obtain ⟨name, rest, _, words, told, -, same, -⟩ :=
    located_command withProgram.space ["lint", "a.ts"] _ located
  obtain ⟨rfl, rfl⟩ := List.cons.inj told
  have rooted : isRooted "/bin/lint" = true := by decide
  exact ⟨located, rooted, fun place => same rooted withProgram withProgram.space.tree place⟩

/-- A name with a slash is found from the working directory, but nothing is there in the scratch
directory. -/
theorem relative_program_is_lost :
    withProgram.space.locate ["bin/lint", "a.ts"] = .ok ["bin/lint", "a.ts"] ∧
      isRooted "bin/lint" = false ∧
      withProgram.program withProgram.space.tree "bin/lint" =
        .error (.system ⟨.noEntry, "bin/lint"⟩) := by
  have walked := walk_program .relative
  have text : Path.toString ⟨.relative, ["bin", "lint"]⟩ = "bin/lint" := by decide
  have plain : Path.IsPlain ⟨.relative, ["bin", "lint"]⟩ := by decide
  have short : isLongPath (Path.toString ⟨.relative, ["bin", "lint"]⟩) = false := by decide
  have step : IsStep "bin" := by decide
  have absent : withProgram.space.tree.entry? ["s", "bin"] = none := rfl
  have usable : withProgram.space.tree.isExecutable withProgram.space.cwd "bin/lint" = true := by
    rw [← text, isExecutable, show withProgram.space.cwd = [] from rfl, walked]
  have found : withProgram.space.find? "bin/lint" = some "bin/lint" :=
    SearchSpace.find?_eq_some_iff.mpr (.inl ⟨by decide, usable, rfl⟩)
  refine ⟨SearchSpace.locate_eq_ok_iff.mpr
    ⟨"bin/lint", ["a.ts"], "bin/lint", rfl, rfl, by rw [if_neg (by decide), found]⟩, by decide, ?_⟩
  have lost : withProgram.space.tree.walk ["s"] "bin/lint" = .error .noEntry := by
    rw [← text, walk_of_short plain ["s"] short]
    simp [Path.isAbsolute, walkFrom_step step, absent]
  rw [Machine.program_of_slash _ _ (by decide), Machine.programAt,
    show withProgram.scratch = ["s"] from rfl, lost]
  rfl

end Sample

end Command

end LintRun
