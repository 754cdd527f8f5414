import Mathlib.Data.List.Induction
import LintRun.Proofs.FileTree.Agreement
import LintRun.Proofs.FileTree.Writing

/-!
# What lies at a resolved path

A resolved path holds no double dots, and if the path could be opened, it leads to the same place
without any link. So what can be read under a path is read under the resolved path, too, unless its
text is too long (`read_of_read`).
-/
namespace LintRun.FileTree

section Resolved

variable {t : FileTree} {cwd : Location} {p resolved : Path}

/-- Following pieces keeps no double dots. -/
theorem follow_noUp {here : Location} (noUp : ".." ∉ here) (pieces : List String) :
    ".." ∉ follow here pieces := by
  induction pieces using List.reverseRecOn with
  | nil => exact noUp
  | append_singleton front last ih =>
    rw [Way.follow_concat]
    split
    · exact ih
    · split
      · exact fun up => ih (List.dropLast_subset _ up)
      · next other => simpa [ih] using Ne.symm other

theorem location_noUp (noUp : ".." ∉ cwd) (w : Way) : ".." ∉ w.location cwd := by
  unfold Way.location
  split
  · exact follow_noUp List.not_mem_nil w.names
  · exact follow_noUp noUp w.names

/-- A path resolves to a location that is told without double dots. -/
theorem exists_location_of_resolve (noUp : ".." ∉ cwd) (ends : t.resolve cwd p = .ok resolved) :
    ∃ l, resolved = pathOf l ∧ ".." ∉ l := by
  unfold resolve at ends
  split at ends
  · cases ends
  · split at ends
    · next w _ => exact ⟨_, (Except.ok.inj ends).symm, location_noUp noUp w⟩
    · next w _ =>
      dsimp only at ends
      split at ends
      · cases ends
      · exact ⟨_, (Except.ok.inj ends).symm, location_noUp noUp w⟩

/-- The working directory resolves to itself. -/
theorem resolve_here (t : FileTree) (cwd : Location) :
    t.resolve cwd ⟨.relative, []⟩ = .ok (pathOf cwd) := by
  have plain : Path.IsPlain ⟨.relative, []⟩ := .nil .relative
  have here : Leads t 0 cwd [] (cwd, .directory) := .here cwd
  exact resolve_of_leads plain rfl here

end Resolved

section Places

variable {t : FileTree}

/-- Names that go down lead to a directory without any link. -/
structure IsReal (t : FileTree) (l : Location) : Prop where
  down : GoesDown l
  leads : Leads t 0 [] l (l, .directory)

theorem IsReal.root (t : FileTree) : t.IsReal [] := ⟨by decide, .here []⟩

theorem IsReal.dropLast {l : Location} (real : t.IsReal l) : t.IsReal l.dropLast := by
  rcases List.eq_nil_or_concat' l with rfl | ⟨front, last, rfl⟩
  · exact .root t
  · rw [List.dropLast_concat]
    have down : GoesDown front :=
      ⟨fun dot => real.down.noDot (by simp [dot]), fun up => real.down.noUp (by simp [up])⟩
    exact ⟨down, real.leads.split_down down (by simp)⟩

theorem IsReal.enter {l : Location} {name : String} (real : t.IsReal l) (step : IsStep name)
    (found : t.entry? (l ++ [name]) = some .directory) : t.IsReal (l ++ [name]) :=
  ⟨real.down.append step.goesDown, real.leads.append (.enter step found (.here _))⟩

/-- The location that names lead to from a directory on is itself told by names that go down to it
without any link. -/
theorem Leads.direct {n : Nat} {l : Location} {names : List String} {place : Location × Entry}
    (leads : Leads t n l names place) (real : t.IsReal l) :
    GoesDown place.1 ∧ Leads t 0 [] place.1 place := by
  induction leads with
  | here l => exact ⟨real.down, real.leads⟩
  | dot _ ih => exact ih real
  | up _ ih => exact ih real.dropLast
  | enter step found _ ih => exact ih (real.enter step found)
  | file step found =>
    exact ⟨real.down.append step.goesDown, real.leads.append (.file step found)⟩
  | follow step found _ ih =>
    refine ih ?_
    split
    · exact .root t
    · exact real

def NulFree (names : List String) : Prop := ∀ name ∈ names, '\x00' ∉ name.toList

theorem holdsNul_eq_false_iff (p : Path) : p.holdsNul = false ↔ NulFree p.names := by
  simp [Path.holdsNul, NulFree]

/-- The pieces of characters hold none but these. -/
theorem mem_of_mem_splitSlashes (c : Char) (cs piece : List Char)
    (split : piece ∈ Path.splitSlashes cs) (member : c ∈ piece) : c ∈ cs := by
  induction cs generalizing piece with
  | nil =>
    obtain rfl := List.mem_singleton.mp split
    exact member
  | cons x rest ih =>
    unfold Path.splitSlashes at split
    split at split
    · next none => exact absurd none (Path.splitSlashes_ne_nil rest)
    · next first others pieces =>
      rw [pieces] at ih
      split at split
      · rcases List.mem_cons.mp split with rfl | later
        · cases member
        · exact List.mem_cons_of_mem x (ih piece later member)
      · rcases List.mem_cons.mp split with rfl | later
        · rcases List.mem_cons.mp member with rfl | inside
          · exact List.mem_cons_self
          · exact List.mem_cons_of_mem x (ih first List.mem_cons_self inside)
        · exact List.mem_cons_of_mem x (ih piece (List.mem_cons_of_mem first later) member)

theorem nulFree_namesOf {s : String} (none : '\x00' ∉ s.toList) : NulFree (namesOf s) := by
  obtain ⟨dots, dotted, spelled⟩ := namesOf_eq s
  intro name member
  rw [spelled] at member
  rcases List.mem_append.mp member with inside | dot
  · obtain ⟨piece, split, rfl⟩ := List.mem_map.mp (List.mem_of_mem_filter inside)
    rw [String.toList_ofList]
    exact fun nul => none (mem_of_mem_splitSlashes _ _ piece split nul)
  · rw [dotted name dot]
    decide

/-- Names without NUL, and links to such names, lead to a location without NUL. -/
theorem Leads.nulFree {n : Nat} {l : Location} {names : List String} {place : Location × Entry}
    (leads : Leads t n l names place)
    (links : ∀ spot target, t.entry? spot = some (.link target) → '\x00' ∉ target.toList)
    (clean : NulFree l) (spelled : NulFree names) : NulFree place.1 := by
  induction leads with
  | here => exact clean
  | dot _ ih => exact ih clean (List.forall_mem_cons.mp spelled).2
  | up _ ih =>
    exact ih (fun name member => clean name (List.dropLast_subset _ member))
      (List.forall_mem_cons.mp spelled).2
  | enter _ _ _ ih =>
    obtain ⟨first, later⟩ := List.forall_mem_cons.mp spelled
    exact ih (List.forall_mem_append.mpr ⟨clean, by simpa using first⟩) later
  | file => exact List.forall_mem_append.mpr ⟨clean, spelled⟩
  | follow _ found _ ih =>
    refine ih ?_ (List.forall_mem_append.mpr
      ⟨nulFree_namesOf (links _ _ found), (List.forall_mem_cons.mp spelled).2⟩)
    split
    · exact fun _ member => absurd member List.not_mem_nil
    · exact clean

end Places

/-- A tree and a working directory as there can be: the directory is told by names without NUL, and
leads there without any link, and no link holds NUL. -/
structure Hosts (t : FileTree) (cwd : Location) : Prop where
  plain : (pathOf cwd).IsPlain
  nulFree : NulFree cwd
  real : t.IsReal cwd
  links : ∀ l target, t.entry? l = some (.link target) → '\x00' ∉ target.toList

/-- No link holds NUL if no entry does. -/
theorem links_of_entries {t : FileTree}
    (clean : ∀ e ∈ t.entries, ∀ target, e.2 = .link target → '\x00' ∉ target.toList)
    (l : Location) (target : String) (link : t.entry? l = some (.link target)) :
    '\x00' ∉ target.toList := by
  obtain ⟨-, listing⟩ := (entry_eq_iff t (by nofun)).mp link
  obtain ⟨e, found, shown⟩ := Option.map_eq_some_iff.mp listing
  exact clean e (List.mem_of_find?_eq_some found) target shown

section Hosts

variable {t : FileTree} {cwd : Location} (hosts : t.Hosts cwd) {p : Path} (plain : p.IsPlain)

include hosts plain

/-- A path resolves to an absolute path, told by plain names without double dots. -/
theorem shape_of_resolve {resolved : Path} (ends : t.resolve cwd p = .ok resolved) :
    resolved.anchor = .root ∧ resolved.IsPlain ∧ ".." ∉ resolved.names := by
  obtain ⟨l, rfl, noUp⟩ := exists_location_of_resolve hosts.real.down.noUp ends
  exact ⟨rfl, (resolve_isPlain hosts.plain plain ends).2, noUp⟩

/-- What is read under a path lies at the location that the path resolves to. -/
theorem resolve_of_read {b : ByteArray} (read : t.read cwd p = .ok b) :
    ∃ l x, t.resolve cwd p = .ok (pathOf l) ∧ (pathOf l).IsPlain ∧ NulFree l ∧
      Leads t 0 [] l (l, .file b x) := by
  unfold FileTree.read at read
  split at read
  · cases read
  · next named =>
    have noNul : p.holdsNul = false := by simpa using named
    split at read
    · next l b' x walked =>
      obtain rfl := Except.ok.inj read
      obtain ⟨-, walkedFrom⟩ := walkFrom_of_walk plain walked nofun
      obtain ⟨n, -, leads⟩ := exists_leads_of_walkFrom walkedFrom
      have resolved := resolve_of_leads plain noNul leads
      have start : t.IsReal (if p.isAbsolute then [] else cwd) := by
        split
        · exact .root t
        · exact hosts.real
      have clean : NulFree (if p.isAbsolute = true then [] else cwd) := by
        split
        · exact fun _ member => absurd member List.not_mem_nil
        · exact hosts.nulFree
      exact ⟨l, x, resolved, (resolve_isPlain hosts.plain plain resolved).2,
        leads.nulFree hosts.links clean ((holdsNul_eq_false_iff p).mp noNul), (leads.direct start).2⟩
    · cases read
    · cases read

/-- What is read under a path is read under the path that it resolves to, too, if the text of this
one is not too long. -/
theorem read_of_read {b : ByteArray} (read : t.read cwd p = .ok b) :
    ∃ file, t.resolve cwd p = .ok file ∧
      t.read cwd file = if isLongPath file.toString
        then .error (.system ⟨.nameTooLong, file.toString⟩) else .ok b := by
  obtain ⟨l, x, resolved, plainThere, clean, leads⟩ := resolve_of_read hosts plain read
  have noNul : (pathOf l).holdsNul = false := (holdsNul_eq_false_iff _).mpr clean
  refine ⟨pathOf l, resolved, ?_⟩
  rw [FileTree.read, noNul, walk_toString t (pathOf l) plainThere]
  cases isLongPath (pathOf l).toString with
  | true => rfl
  | false =>
    have walked : t.walkFrom linkLimit [] l = .ok (l, .file b x) :=
      leads.walkFrom_eq (Nat.zero_le linkLimit)
    simp [pathOf, Path.isAbsolute, walked]

end Hosts

end LintRun.FileTree
