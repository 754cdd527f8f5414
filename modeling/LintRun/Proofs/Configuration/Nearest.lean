import Mathlib.Data.List.Induction
import Mathlib.Data.List.Infix
import LintRun.Configuration

/-!
# The nearest configuration

The directories from a location upwards are its front parts, the longest first. A search comes to a
directory if none below it on the way has a file of the name (`ComesTo`), and then it goes on as if
it had started there (`search_upward_of_comesTo`). So what it finds is said without following it:
the first directory that it comes to and that has a file settles it.
-/
namespace LintRun.Configuration

theorem upward_nil : upward [] = [[]] := rfl

theorem upward_concat (l : Location) (name : String) :
    upward (l ++ [name]) = (l ++ [name]) :: upward l := by
  have shorter : ∀ i, (l ++ [name]).take (l.length + 1 - (i + 1)) = l.take (l.length - i) := by
    intro i
    rw [Nat.add_sub_add_right, List.take_append_of_le_length (Nat.sub_le _ _)]
  unfold upward
  rw [List.length_append, List.length_singleton, List.range_succ_eq_map, List.map_cons,
    List.map_map]
  congr 1
  · simp
  · exact List.map_congr_left fun i _ => shorter i

/-- The nearest directory is the location itself. -/
theorem upward_eq_cons (l : Location) : ∃ above, upward l = l :: above := by
  rcases List.eq_nil_or_concat' l with rfl | ⟨parent, name, rfl⟩
  · exact ⟨[], rfl⟩
  · exact ⟨_, upward_concat parent name⟩

variable {tree : FileTree} {cwd : Location} {name : String}

/-- A search from `start` upwards comes to a directory: none below it on the way has a file of the
name. -/
def ComesTo (tree : FileTree) (cwd : Location) (name : String) (start d : Location) : Prop :=
  d <+: start ∧
    ∀ x, x <+: start → d.length < x.length → tree.isFile cwd (candidate name x) = .ok false

theorem ComesTo.refl (d : Location) : ComesTo tree cwd name d d := by
  refine ⟨List.prefix_rfl, ?_⟩
  intro x front longer
  exact absurd front.length_le (Nat.not_le.mpr longer)

/-- A directory without a file of the name is passed. -/
theorem ComesTo.concat {l d : Location} {last : String} (comes : ComesTo tree cwd name l d)
    (absent : tree.isFile cwd (candidate name (l ++ [last])) = .ok false) :
    ComesTo tree cwd name (l ++ [last]) d := by
  refine ⟨comes.1.trans (List.prefix_append _ _), ?_⟩
  intro x front longer
  rcases List.prefix_concat_iff.mp front with rfl | front
  · exact absent
  · exact comes.2 x front longer

variable [Wording]

/-- A search is decided where it comes to. -/
theorem search_upward_of_comesTo {start d : Location} (comes : ComesTo tree cwd name start d) :
    search tree cwd name (upward start) = search tree cwd name (upward d) := by
  induction start using List.reverseRecOn with
  | nil => rw [List.prefix_nil.mp comes.1]
  | append_singleton l last ih =>
    rcases List.prefix_concat_iff.mp comes.1 with rfl | above
    · rfl
    · have absent := comes.2 _ List.prefix_rfl (by simpa using Nat.lt_succ_of_le above.length_le)
      rw [upward_concat, search]
      simp only [absent]
      exact ih ⟨above, fun x front => comes.2 x (front.trans (List.prefix_append _ _))⟩

/-- The file of the first directory that has one is loaded. -/
theorem search_upward_of_isFile {start d : Location} (comes : ComesTo tree cwd name start d)
    (there : tree.isFile cwd (candidate name d) = .ok true) :
    search tree cwd name (upward start) = load Depth.found tree cwd (candidate name d) := by
  obtain ⟨above, shape⟩ := upward_eq_cons d
  rw [search_upward_of_comesTo comes, shape, search]
  simp only [there]

/-- A directory that cannot be asked for its file ends the search. -/
theorem search_upward_of_error {start d : Location} (comes : ComesTo tree cwd name start d)
    {e : SystemError} (refused : tree.isFile cwd (candidate name d) = .error e) :
    search tree cwd name (upward start) = .error (.system e) := by
  obtain ⟨above, shape⟩ := upward_eq_cons d
  rw [search_upward_of_comesTo comes, shape, search]
  simp only [refused]

/-- Without a file of the name anywhere on the way the configuration is empty. -/
theorem search_upward_of_absent {start : Location}
    (absent : ∀ d, d <+: start → tree.isFile cwd (candidate name d) = .ok false) :
    search tree cwd name (upward start) = .ok [] := by
  have comes : ComesTo tree cwd name start [] :=
    ⟨List.nil_prefix, fun x front _ => absent x front⟩
  rw [search_upward_of_comesTo comes, upward_nil, search]
  simp only [absent [] List.nil_prefix]
  rfl

section Load

variable (depth : Nat) (file : Path)

omit [Wording] in
/-- What leads to a file can be read. -/
theorem read_of_isFile (there : tree.isFile cwd file = .ok true) :
    ∃ b, tree.read cwd file = .ok b := by
  unfold FileTree.isFile at there
  unfold FileTree.read
  split at there
  · cases there
  · next named =>
    rw [if_neg named]
    split at there
    · exact ⟨_, rfl⟩
    · cases there
    · split at there <;> cases there

/-- A configuration file that is there cannot fail to be reached. -/
theorem readFile_ne_access (there : tree.isFile cwd file = .ok true) (problem : AccessProblem) :
    readFile depth tree cwd file ≠ .error (.access problem) := by
  obtain ⟨b, bytes⟩ := read_of_isFile file there
  unfold readFile
  rw [bytes]
  intro failed
  dsimp only at failed
  split at failed
  · unfold readToml at failed
    split at failed
    · cases failed
    · split at failed <;> cases failed
  · unfold readJson at failed
    split at failed
    · cases failed
    · dsimp only at failed
      split at failed <;> cases failed

/-- Only a table is a configuration. -/
theorem load_of_ne_table {v : Value} (read : readFile depth tree cwd file = .ok v)
    (other : ∀ t, v ≠ .table t) :
    load depth tree cwd file = .error (.config (.notTable file.toString)) := by
  rw [load, read]
  cases v with
  | table t => exact absurd rfl (other t)
  | _ => rfl

/-- Whatever is wrong with a file that is there is told as a problem of the configuration, unless
there is too much of something. -/
theorem load_of_error {why : ReadProblem} (there : tree.isFile cwd file = .ok true)
    (failed : readFile depth tree cwd file = .error why) (within : ∀ x, why ≠ .excess x) :
    load depth tree cwd file = .error (.config (.unusable file.toString why)) := by
  rw [load, failed]
  cases why with
  | access problem => exact absurd failed (readFile_ne_access depth file there problem)
  | excess x => exact absurd rfl (within x)
  | _ => rfl

end Load

end LintRun.Configuration
