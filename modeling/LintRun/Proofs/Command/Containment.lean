import LintRun.Proofs.Command.Scratch

/-!
# Where the copy of a file lies

The path of a copy starts at the scratch directory and has a name. All its names go down, so the
copy lies below the directory, unless the relative path ends with a double dot: this is kept as the
name of the copy, and means the directory above (`copy_lies_inside`). No such copy is ever written,
and what a scratch directory is filled with changes nothing outside of it (`outside_of_fill`).
-/
namespace LintRun

/-- A path goes on from a directory, by names that are no double dots. -/
def Path.IsBelow (p directory : Path) : Prop :=
  p.anchor = directory.anchor ∧
    ∃ names, names ≠ [] ∧ ".." ∉ names ∧ p.names = directory.names ++ names

namespace Command

open LintRun.FileTree

section Names

/-- The path that a text spells with backslashes for slashes. -/
def spelled (relative : String) : Path :=
  Path.ofString (relative.map fun c => if c = '\\' then '/' else c)

/-- The last name of a path is a double dot. -/
def EndsUpward (relative : String) : Prop := (spelled relative).name = ".."

theorem scratchPath_eq (relative : String) :
    scratchPath relative =
      if (spelled relative).isAbsolute || (spelled relative).names.contains ".." ||
          (spelled relative).names.isEmpty then
        if (spelled relative).name = "" then fallbackName else (spelled relative).name
      else (spelled relative).toString := rfl

theorem ofString_name {name : String} (proper : Path.IsName name) :
    Path.ofString name = ⟨.relative, [name]⟩ := by
  have plain : Path.IsPlain ⟨.relative, [name]⟩ := by simpa [Path.IsPlain] using proper
  have back := Path.ofString_toString _ plain
  rwa [toString_name] at back

/-- A copy is called as its path ends. -/
theorem name_scratchPath (relative : String) :
    (Path.ofString (scratchPath relative)).name =
      if (spelled relative).name = "" then fallbackName else (spelled relative).name := by
  have plain : (spelled relative).IsPlain := Path.ofString_isPlain _
  have last {name : String} (ends : (spelled relative).names.getLast? = some name) :
      (spelled relative).name = name ∧ Path.IsName name :=
    ⟨by rw [Path.name, ends]; rfl, plain name (List.mem_of_getLast? ends)⟩
  rw [scratchPath_eq]
  cases ends : (spelled relative).names.getLast? with
  | none =>
    have bare := List.getLast?_eq_none_iff.mp ends
    have unnamed : (spelled relative).name = "" := by rw [Path.name, ends]; rfl
    rw [if_pos (by simp [bare]), if_pos unnamed]
    decide
  | some name =>
    obtain ⟨named, proper⟩ := last ends
    rw [named, if_neg proper.1]
    split
    · rw [ofString_name proper]
      rfl
    · rw [Path.ofString_toString _ plain, named]

/-- A copy lies at the names of a relative path, and one of them is a double dot only if the path
that it stands for ends with one. -/
theorem exists_names_of_copy (relative : String) :
    ∃ names, names ≠ [] ∧ scratchPath relative = Path.toString ⟨.relative, names⟩ ∧
      Path.ofString (scratchPath relative) = ⟨.relative, names⟩ ∧
      (".." ∈ names ↔ EndsUpward relative) := by
  obtain ⟨front, last, down, plain, shown⟩ := exists_scratchPath_eq relative
  have read : Path.ofString (scratchPath relative) = ⟨.relative, front ++ [last]⟩ := by
    rw [shown, Path.ofString_toString _ plain]
  have called := name_scratchPath relative
  rw [read, Path.name_eq_last rfl] at called
  refine ⟨front ++ [last], by simp, shown, read, ?_⟩
  have onlyLast : ".." ∈ front ++ [last] ↔ last = ".." := by
    simp [down.noUp, eq_comm]
  rw [onlyLast, called, EndsUpward]
  split
  · next unnamed => simp [unnamed, fallbackName]
  · rfl

theorem join_isBelow_iff (directory : Path) {names : List String} (filled : names ≠ []) :
    (directory.join ⟨.relative, names⟩).IsBelow directory ↔ ".." ∉ names := by
  constructor
  · rintro ⟨-, more, -, noUp, further⟩
    obtain rfl : names = more := List.append_cancel_left further
    exact noUp
  · exact fun noUp => ⟨rfl, names, filled, noUp, rfl⟩

end Names

section Outside

/-- A tree has changed only from a directory on, and still lists the directory. -/
structure Confined (base : Location) (t u : FileTree) : Prop where
  listed : (t.listed? base).isSome → (u.listed? base).isSome
  outside : ∀ l, ¬ base <+: l → u.listed? l = t.listed? l

namespace Confined

variable {base : Location} {t u v : FileTree}

theorem refl (base : Location) (t : FileTree) : Confined base t t := ⟨id, fun _ _ => rfl⟩

theorem trans (first : Confined base t u) (second : Confined base u v) : Confined base t v :=
  ⟨fun there => second.listed (first.listed there),
    fun l apart => (second.outside l apart).trans (first.outside l apart)⟩

/-- Something is put below the directory. -/
theorem put {l : Location} (below : base <+: l) (e : Entry) : Confined base t (t.put l e) := by
  constructor
  · intro there
    rw [listed?_put]
    split
    · rfl
    · exact there
  · intro k apart
    rw [listed?_put, if_neg]
    rintro rfl
    exact apart below

/-- There is something on the way to all that is listed. -/
theorem isSome_entry {k l : Location} (there : (t.listed? k).isSome) (above : l <+: k) :
    (t.entry? l).isSome := by
  by_cases root : l = []
  · rw [root, entry_root]
    rfl
  · obtain ⟨e, first, -⟩ := Option.map_eq_some_iff.mp (Option.some_get there).symm
    have covered : t.entries.any fun x => l.isPrefixOf x.1 := by
      refine List.any_eq_true.mpr ⟨e, List.mem_of_find?_eq_some first, ?_⟩
      have spot : e.1 = k := by simpa using List.find?_some first
      rw [spot]
      exact List.isPrefixOf_iff_prefix.mpr above
    rw [entry_eq t root, if_pos covered]
    cases t.listed? l <;> rfl

theorem makeDirectory {l : Location} (there : (t.listed? base).isSome)
    (onWay : l <+: base ∨ base <+: l) : Confined base t (t.makeDirectory l) := by
  unfold FileTree.makeDirectory
  split
  · exact .refl base t
  · next free =>
    rcases onWay with above | below
    · exact absurd (isSome_entry there above) free
    · exact .put below .directory

/-- The directories on the way to a path below the directory are there, or made below it. -/
theorem makeParents {p : Path} (below : base <+: p.names) (there : (t.listed? base).isSome) :
    Confined base t (Command.makeParents t p) := by
  unfold Command.makeParents
  generalize List.range p.names.length = sizes
  induction sizes generalizing t with
  | nil => exact .refl base t
  | cons i rest ih =>
    have onWay := List.prefix_or_prefix_of_prefix (List.take_prefix i p.names) below
    have one := makeDirectory there onWay
    exact one.trans (ih (one.listed there))

/-- A file is written below the directory. -/
theorem written {p : Path} {front : List String} {last : String} {b : ByteArray}
    (below : base <+: p.names) (there : (t.listed? base).isSome)
    (written : (Command.makeParents t p).Written u (base ++ front) last b) :
    Confined base t u := by
  obtain ⟨x, rfl⟩ := written.put
  refine (makeParents below there).trans (.put ?_ _)
  rw [List.append_assoc]
  exact List.prefix_append base _

end Confined

variable {σ : Type} {m : Machine σ} {t : FileTree} {r : Request} {depth : Nat}

/-- Filling a scratch directory changes nothing outside of it, and there is no copy to write whose
path ends with a double dot. -/
theorem outside_of_fill (placed : m.IsPlaced) (filled : m.fill depth r = .ok t) :
    ¬ EndsUpward r.relative ∧
      ∀ l, ¬ m.scratch <+: l → t.listed? l = m.space.tree.listed? l := by
  obtain ⟨_, -, -, u, configured, front, last, down, plain, named, -, copied⟩ :=
    Machine.written_of_fill placed filled
  have fresh : ((freshDirectory m.space.tree m.scratch).listed? m.scratch).isSome := by
    rw [listed?_freshDirectory, if_pos rfl]
    rfl
  have first : Confined m.scratch (freshDirectory m.space.tree m.scratch) u :=
    .written (List.prefix_append ..) fresh copied
  rw [← List.append_nil m.scratch] at configured
  have second : Confined m.scratch u t := by
    refine .written ?_ (first.listed fresh) configured
    simp
  constructor
  · obtain ⟨names, -, -, read, upward⟩ := exists_names_of_copy r.relative
    rw [named, Path.ofString_toString _ plain] at read
    rw [← upward, ← (Path.mk.inj read).2]
    simp [down.noUp, Ne.symm copied.free.step.notUp]
  · intro l apart
    rw [(first.trans second).outside l apart, listed?_freshDirectory, if_neg, if_neg apart]
    rintro rfl
    exact apart List.prefix_rfl

end Outside

/-- A copy has a relative path with at least one name, and as seen from any directory it lies below
the directory exactly if the path that it stands for does not end with a double dot. If it does,
the copy is called so. No scratch directory is ever filled with such a copy, and filling one leaves
all that is listed outside of it as it was. -/
theorem copy_lies_inside (relative : String) :
    ∃ names, names ≠ [] ∧ scratchPath relative ≠ "" ∧
      scratchPath relative = Path.toString ⟨.relative, names⟩ ∧
      Path.ofString (scratchPath relative) = ⟨.relative, names⟩ ∧
      (".." ∈ names ↔ EndsUpward relative) ∧
      (∀ directory : Path,
        (directory.join (Path.ofString (scratchPath relative))).IsBelow directory ↔
          ¬ EndsUpward relative) ∧
      ∀ {σ : Type} (m : Machine σ) (depth : Nat) (r : Request) (t : FileTree), m.IsPlaced →
        r.relative = relative → m.fill depth r = .ok t →
          ¬ EndsUpward relative ∧
            ∀ l, ¬ m.scratch <+: l → t.listed? l = m.space.tree.listed? l := by
  obtain ⟨names, filled, shown, read, upward⟩ := exists_names_of_copy relative
  refine ⟨names, filled, ?_, shown, read, upward, ?_, ?_⟩
  · intro empty
    rw [empty] at read
    exact filled (Path.mk.inj read).2.symm
  · intro directory
    rw [read, join_isBelow_iff directory filled, upward]
  · rintro σ m depth r t placed rfl done
    exact outside_of_fill placed done

/-- A path that is nothing but a double dot leads out of the scratch directory. -/
theorem double_dot_leads_out :
    scratchPath ".." = ".." ∧ Path.ofString (scratchPath "..") = ⟨.relative, [".."]⟩ ∧
      ¬ (Path.join ⟨.root, ["s"]⟩ (Path.ofString (scratchPath ".."))).IsBelow ⟨.root, ["s"]⟩ ∧
      follow [] (Path.join ⟨.root, ["s"]⟩ (Path.ofString (scratchPath ".."))).names = [] := by
  have same : scratchPath ".." = ".." := by decide +kernel
  have read : Path.ofString (scratchPath "..") = ⟨.relative, [".."]⟩ := by decide +kernel
  refine ⟨same, read, ?_, ?_⟩
  · rw [read, join_isBelow_iff _ (List.cons_ne_nil _ _)]
    simp
  · rw [read]
    decide

end Command

end LintRun
