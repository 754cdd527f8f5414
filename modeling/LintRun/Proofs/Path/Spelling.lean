import Mathlib.Data.List.Basic
import LintRun.FileTree

/-!
# Paths as text

The names of a path are not empty, are no single dots and hold no slash, so the text of a path can
be taken apart into its names again: `Path.ofString` reads a path back from its text
(`ofString_toString`), and the file tree finds the same names in it (`namesOf_toString`).
-/
namespace LintRun.Path

section Slashes

/-- Characters without a slash are one piece. -/
theorem splitSlashes_of_not_mem (cs : List Char) (plain : '/' ∉ cs) : splitSlashes cs = [cs] := by
  induction cs with
  | nil => rfl
  | cons c rest ih =>
    have other := List.ne_of_not_mem_cons plain
    have later := List.not_mem_of_not_mem_cons plain
    rw [splitSlashes, ih later]
    exact if_neg (Ne.symm other)

theorem splitSlashes_ne_nil (cs : List Char) : splitSlashes cs ≠ [] := by
  cases cs with
  | nil => exact List.cons_ne_nil _ _
  | cons c rest =>
    unfold splitSlashes
    split
    · exact List.cons_ne_nil _ _
    · split <;> exact List.cons_ne_nil _ _

/-- The first slash ends the first piece. -/
theorem splitSlashes_append_slash (cs rest : List Char) (plain : '/' ∉ cs) :
    splitSlashes (cs ++ '/' :: rest) = cs :: splitSlashes rest := by
  induction cs with
  | nil =>
    rw [List.nil_append, splitSlashes]
    cases pieces : splitSlashes rest with
    | nil => exact absurd pieces (splitSlashes_ne_nil rest)
    | cons first others => exact if_pos rfl
  | cons c more ih =>
    have other := List.ne_of_not_mem_cons plain
    have later := List.not_mem_of_not_mem_cons plain
    rw [List.cons_append, splitSlashes, ih later]
    exact if_neg (Ne.symm other)

/-- No piece holds a slash. -/
theorem not_mem_of_mem_splitSlashes (cs piece : List Char) (member : piece ∈ splitSlashes cs) :
    '/' ∉ piece := by
  induction cs generalizing piece with
  | nil =>
    obtain rfl := List.mem_singleton.mp member
    exact List.not_mem_nil
  | cons c rest ih =>
    unfold splitSlashes at member
    split at member
    · next none => exact absurd none (splitSlashes_ne_nil rest)
    · next first others pieces =>
      rw [pieces] at ih
      split at member
      · rcases List.mem_cons.mp member with rfl | later
        · exact List.not_mem_nil
        · exact ih piece later
      · next other =>
        rcases List.mem_cons.mp member with rfl | later
        · exact List.not_mem_cons_of_ne_of_not_mem (Ne.symm other) (ih first (by simp))
        · exact ih piece (by simp [later])

theorem splitSlashes_intercalate (pieces : List (List Char)) (filled : pieces ≠ [])
    (plain : ∀ p ∈ pieces, '/' ∉ p) : splitSlashes (['/'].intercalate pieces) = pieces := by
  induction pieces with
  | nil => exact absurd rfl filled
  | cons first others ih =>
    obtain ⟨plainFirst, plainOthers⟩ := List.forall_mem_cons.mp plain
    cases others with
    | nil => rw [List.intercalate_singleton, splitSlashes_of_not_mem first plainFirst]
    | cons second rest =>
      rw [List.intercalate_cons_cons, List.append_assoc, List.singleton_append,
        splitSlashes_append_slash first _ plainFirst, ih (List.cons_ne_nil _ _) plainOthers]

/-- A slash at the end leaves a piece of nothing behind it. -/
theorem splitSlashes_concat_slash (cs : List Char) :
    splitSlashes (cs ++ ['/']) = splitSlashes cs ++ [[]] := by
  induction cs with
  | nil => rfl
  | cons c rest ih =>
    rw [List.cons_append, splitSlashes, splitSlashes, ih]
    cases pieces : splitSlashes rest with
    | nil => exact absurd pieces (splitSlashes_ne_nil rest)
    | cons first others =>
      dsimp only [List.cons_append]
      split <;> rfl

end Slashes

/-- What a path keeps as a name. -/
def IsName (name : String) : Prop := name ≠ "" ∧ name ≠ "." ∧ '/' ∉ name.toList

instance (name : String) : Decidable (IsName name) :=
  inferInstanceAs (Decidable (name ≠ "" ∧ name ≠ "." ∧ '/' ∉ name.toList))

def IsPlain (p : Path) : Prop := ∀ name ∈ p.names, IsName name

instance (p : Path) : Decidable p.IsPlain :=
  inferInstanceAs (Decidable (∀ name ∈ p.names, IsName name))

theorem IsPlain.nil (a : Anchor) : IsPlain ⟨a, []⟩ := fun _ member => absurd member List.not_mem_nil

theorem IsPlain.join {directory p : Path} (plainDirectory : directory.IsPlain)
    (plain : p.IsPlain) : (directory.join p).IsPlain := by
  unfold Path.join
  split
  · exact plain
  · intro name member
    rcases List.mem_append.mp member with first | last
    · exact plainDirectory name first
    · exact plain name last

theorem IsPlain.parent {p : Path} (plain : p.IsPlain) : p.parent.IsPlain :=
  fun name member => plain name (List.dropLast_subset _ member)

section Last

variable {p : Path} {front : List String} {last : String} (named : p.names = front ++ [last])

include named

theorem names_parent : p.parent.names = front := by rw [parent, named, List.dropLast_concat]

theorem name_eq_last : p.name = last := by
  rw [name, named, List.getLast?_concat]
  rfl

end Last

/-- Reading keeps names only. -/
theorem ofString_isPlain (s : String) : (ofString s).IsPlain := by
  intro name member
  obtain ⟨piece, kept, rfl⟩ := List.mem_map.mp member
  obtain ⟨split, shown⟩ := List.mem_filter.mp kept
  obtain ⟨nonempty, notDot⟩ := of_decide_eq_true shown
  refine ⟨?_, ?_, ?_⟩
  · simpa using nonempty
  · intro dot
    exact notDot (by rw [← String.toList_ofList (l := piece), dot]; rfl)
  · rw [String.toList_ofList]
    exact not_mem_of_mem_splitSlashes _ _ split

section Text

variable (names : List String)

theorem toList_intercalate_slash :
    (String.intercalate "/" names).toList = ['/'].intercalate (names.map String.toList) :=
  String.toList_intercalate

/-- The pieces of names with slashes between them. -/
theorem splitSlashes_names (filled : names ≠ []) (plain : ∀ name ∈ names, IsName name) :
    splitSlashes (String.intercalate "/" names).toList = names.map String.toList := by
  rw [toList_intercalate_slash]
  refine splitSlashes_intercalate _ (by simpa using filled) ?_
  intro piece member
  obtain ⟨name, among, rfl⟩ := List.mem_map.mp member
  exact (plain name among).2.2

/-- Leading slashes add pieces of nothing. -/
theorem splitSlashes_slashes (count : Nat) (cs : List Char) :
    splitSlashes (List.replicate count '/' ++ cs) =
      List.replicate count [] ++ splitSlashes cs := by
  induction count with
  | zero => rfl
  | succ n ih =>
    rw [List.replicate_succ, List.replicate_succ, List.cons_append, List.cons_append, ← ih]
    exact splitSlashes_append_slash [] _ List.not_mem_nil

end Text

/-- How many slashes stand for an anchor. -/
def slashes : Anchor → Nat
  | .relative => 0
  | .root => 1
  | .doubleRoot => 2

theorem toList_anchorText (a : Anchor) :
    (anchorText a).toList = List.replicate (slashes a) '/' := by
  cases a <;> rfl

theorem anchorOf_slashes (a : Anchor) : anchorOf (slashes a) = a := by cases a <;> rfl

section ToString

variable (p : Path)

theorem toString_eq (filled : p.names ≠ []) :
    p.toString = anchorText p.anchor ++ String.intercalate "/" p.names := by
  have notNothing : (p.anchor = .relative && p.names.isEmpty) = false := by simp [filled]
  unfold toString
  rw [notNothing]
  rfl

theorem toList_toString (filled : p.names ≠ []) :
    p.toString.toList =
      List.replicate (slashes p.anchor) '/' ++ (String.intercalate "/" p.names).toList := by
  rw [toString_eq p filled, String.toList_append, toList_anchorText]

variable (plain : p.IsPlain)

include plain

theorem splitSlashes_toString (filled : p.names ≠ []) :
    splitSlashes p.toString.toList =
      List.replicate (slashes p.anchor) [] ++ p.names.map String.toList := by
  rw [toList_toString p filled, splitSlashes_slashes, splitSlashes_names p.names filled plain]

/-- The text of names does not start with a slash. -/
theorem exists_intercalate_eq_cons (filled : p.names ≠ []) :
    ∃ c rest, (String.intercalate "/" p.names).toList = c :: rest ∧ c ≠ '/' := by
  obtain ⟨first, others, names⟩ := List.exists_cons_of_ne_nil filled
  obtain ⟨nonempty, -, noSlash⟩ := plain first (by simp [names])
  have notNothing : first.toList ≠ [] := by simpa using nonempty
  obtain ⟨c, more, spelled⟩ := List.exists_cons_of_ne_nil notNothing
  have other : c ≠ '/' := by
    rintro rfl
    exact noSlash (by simp [spelled])
  rw [toList_intercalate_slash, names, List.map_cons, spelled]
  cases others with
  | nil => exact ⟨c, more, by rw [List.map_nil, List.intercalate_singleton], other⟩
  | cons second rest =>
    rw [List.map_cons, List.intercalate_cons_cons]
    exact ⟨c, _, rfl, other⟩

theorem takeWhile_slash_toString (filled : p.names ≠ []) :
    p.toString.toList.takeWhile (· == '/') = List.replicate (slashes p.anchor) '/' := by
  obtain ⟨c, rest, spelled, other⟩ := exists_intercalate_eq_cons p plain filled
  rw [toList_toString p filled, spelled, List.takeWhile_append_of_pos (by simp),
    List.takeWhile_cons_of_neg (by simpa using other), List.append_nil]

/-- A path is read back from its text. -/
theorem ofString_toString : ofString p.toString = p := by
  obtain ⟨anchor, names⟩ := p
  cases names with
  | nil => cases anchor <;> decide
  | cons first others =>
    have filled : first :: others ≠ [] := List.cons_ne_nil _ _
    have pieces := splitSlashes_toString ⟨anchor, first :: others⟩ plain filled
    have leading := takeWhile_slash_toString ⟨anchor, first :: others⟩ plain filled
    dsimp only at pieces leading
    have kept : ((first :: others).map String.toList).filter (fun n => n ≠ [] ∧ n ≠ ['.']) =
        (first :: others).map String.toList := by
      refine List.filter_eq_self.mpr ?_
      intro piece member
      obtain ⟨name, among, rfl⟩ := List.mem_map.mp member
      obtain ⟨nonempty, notDot, -⟩ := plain name among
      refine decide_eq_true ⟨by simpa using nonempty, ?_⟩
      intro dot
      exact notDot (String.toList_inj.mp dot)
    have dropped : (List.replicate (slashes anchor) ([] : List Char)).filter
        (fun n => n ≠ [] ∧ n ≠ ['.']) = [] := by
      simp
    unfold ofString namesOf
    rw [leading, List.length_replicate, anchorOf_slashes, pieces, List.filter_append, dropped, kept,
      List.nil_append, List.map_map]
    simp

/-- The text of a path starts at the root exactly if the path does. -/
theorem isRooted_toString : FileTree.isRooted p.toString = p.isAbsolute := by
  obtain ⟨anchor, names⟩ := p
  cases names with
  | nil => cases anchor <;> decide
  | cons first others =>
    have filled : first :: others ≠ [] := List.cons_ne_nil _ _
    obtain ⟨c, rest, spelled, other⟩ :=
      exists_intercalate_eq_cons ⟨anchor, first :: others⟩ plain filled
    rw [FileTree.isRooted, toList_toString _ filled, spelled]
    cases anchor with
    | relative => simpa [slashes, isAbsolute] using other
    | root => rfl
    | doubleRoot => rfl

/-- The file tree finds the names of a path in its text. -/
theorem namesOf_toString (filled : p.names ≠ []) : FileTree.namesOf p.toString = p.names := by
  have pieces := splitSlashes_toString p plain filled
  have noSlashLast : p.toString.toList.getLast? ≠ some '/' := by
    intro slash
    obtain ⟨front, shape⟩ := List.getLast?_eq_some_iff.mp slash
    rw [shape, splitSlashes_concat_slash] at pieces
    obtain ⟨init, last, names⟩ := (List.eq_nil_or_concat' p.names).resolve_left filled
    rw [names, List.map_append, ← List.append_assoc] at pieces
    obtain ⟨-, nothing⟩ := List.append_inj' pieces rfl
    have empty : last.toList = [] := (List.cons.inj nothing).1.symm
    exact (plain last (by simp [names])).1 (String.toList_eq_nil_iff.mp empty)
  have kept : (p.names.map String.toList).filter (· ≠ []) = p.names.map String.toList := by
    refine List.filter_eq_self.mpr ?_
    intro piece member
    obtain ⟨name, among, rfl⟩ := List.mem_map.mp member
    exact decide_eq_true (by simpa using (plain name among).1)
  have dropped : (List.replicate (slashes p.anchor) ([] : List Char)).filter (· ≠ []) = [] := by
    simp
  unfold FileTree.namesOf
  dsimp only
  rw [if_neg noSlashLast, pieces, List.filter_append, dropped, kept, List.nil_append, List.map_map]
  simp

end ToString

/-- Names in front make the text of a path longer. -/
theorem utf8ByteSize_toString_le (front names : List String) (filled : names ≠ []) :
    (toString ⟨.relative, names⟩).utf8ByteSize ≤
      (toString ⟨.root, front ++ names⟩).utf8ByteSize := by
  have behind : (String.intercalate "/" names).utf8ByteSize ≤
      (String.intercalate "/" (front ++ names)).utf8ByteSize := by
    induction front with
    | nil => exact Nat.le_refl _
    | cons name rest ih =>
      obtain ⟨second, others, shape⟩ :=
        List.exists_cons_of_ne_nil (List.append_ne_nil_of_right_ne_nil rest filled)
      rw [shape] at ih
      rw [List.cons_append, shape, String.intercalate_cons_cons, String.utf8ByteSize_append]
      omega
  rw [toString_eq _ filled, toString_eq _ (List.append_ne_nil_of_right_ne_nil front filled),
    String.utf8ByteSize_append, String.utf8ByteSize_append]
  exact Nat.add_le_add (Nat.zero_le _) behind

end LintRun.Path
