import Mathlib.Data.List.Perm.Subperm
import LintRun.Proofs.FileTree.Entries

/-!
# Ways and locations

A way from the working directory may start with double dots, so entering and leaving a directory is
done to its names and not to a location; both lead to the location that is meant (`location_enter`,
`location_leave`). Different links lie at different locations, so there are no more of them than a
tree holds (`length_le_linkCount`), and names are never on a way to themselves, as each way over
links has its length (`Leads.count_unique`).
-/
namespace LintRun.FileTree

namespace Way

/-- The names of a way are no dots, and a way from the root has no double dots. -/
structure IsSound (w : Way) : Prop where
  names : ∀ name ∈ w.names, name ≠ "" ∧ name ≠ "."
  noUp : w.rooted = true → ".." ∉ w.names

variable {w : Way} {name : String} (cwd : Location)

theorem isSound_start (rooted : Bool) : (Way.mk rooted []).IsSound :=
  ⟨fun _ member => absurd member List.not_mem_nil, fun _ => List.not_mem_nil⟩

theorem IsSound.enter (sound : w.IsSound) (proper : name ≠ "" ∧ name ≠ ".") (noUp : name ≠ "..") :
    (w.enter name).IsSound := by
  refine ⟨?_, ?_⟩
  · intro other member
    rcases List.mem_append.mp member with early | last
    · exact sound.names other early
    · exact List.mem_singleton.mp last ▸ proper
  · intro rooted
    simpa [Way.enter, Ne.symm noUp] using sound.noUp rooted

theorem IsSound.leave (sound : w.IsSound) : w.leave.IsSound := by
  unfold Way.leave
  split
  · exact ⟨fun name member => sound.names name (List.dropLast_subset _ member),
      fun rooted up => sound.noUp rooted (List.dropLast_subset _ up)⟩
  · next unrooted =>
    simp only [Bool.or_eq_true, not_or, Bool.not_eq_true] at unrooted
    refine ⟨?_, ?_⟩
    · intro name member
      rcases List.mem_append.mp member with early | last
      · exact sound.names name early
      · exact List.mem_singleton.mp last ▸ by decide
    · intro rooted
      exact absurd (rooted.symm.trans unrooted.1) (by decide)

theorem follow_concat (here : Location) (names : List String) (name : String) :
    follow here (names ++ [name]) =
      if name = "" || name = "." then follow here names
      else if name = ".." then (follow here names).dropLast else follow here names ++ [name] := by
  simp only [follow, List.foldl_append, List.foldl_cons, List.foldl_nil]

/-- A name further on lies the location of that name. -/
theorem location_enter (proper : name ≠ "" ∧ name ≠ ".") (noUp : name ≠ "..") :
    (w.enter name).location cwd = w.location cwd ++ [name] := by
  rw [location, Way.enter, follow_concat]
  simp [proper, noUp, location]

/-- A name back lies the location above. -/
theorem location_leave (sound : w.IsSound) :
    w.leave.location cwd = (w.location cwd).dropLast := by
  unfold Way.leave
  split
  · next back =>
    rcases List.eq_nil_or_concat' w.names with none | ⟨front, last, names⟩
    · -- Nothing lies above the root.
      have rooted : w.rooted = true := by simpa [none] using back
      simp [location, none, rooted, follow]
    · have proper := sound.names last (by simp [names])
      have noUp : last ≠ ".." := by
        rintro rfl
        have rooted : w.rooted = true := by simpa [names] using back
        exact sound.noUp rooted (by simp [names])
      rw [location, location, names, List.dropLast_concat, follow_concat]
      simp [proper, noUp]
  · rw [location, location, Way.enter, follow_concat]
    simp

end Way

section Links

variable (t : FileTree)

/-- Different locations at which links lie are at most as many as the links of the tree. -/
theorem length_le_linkCount (spots : List Location) (distinct : spots.Nodup)
    (links : ∀ l ∈ spots, ∃ target, t.entry? l = some (.link target)) :
    spots.length ≤ t.linkCount := by
  rw [linkCount, List.countP_eq_length_filter, ← List.length_map (f := Prod.fst)]
  refine (distinct.subperm ?_).length_le
  intro l member
  obtain ⟨target, link⟩ := links l member
  obtain ⟨-, listing⟩ := (entry_eq_iff t (by nofun)).mp link
  obtain ⟨⟨spot, e⟩, first, shown⟩ := Option.map_eq_some_iff.mp listing
  have spotted : spot = l := by simpa using List.find?_some first
  subst spotted shown
  exact List.mem_map.mpr ⟨_, List.mem_filter.mpr ⟨List.mem_of_find?_eq_some first, rfl⟩, rfl⟩

variable {t} {n m : Nat} {l : Location} {name : String} {names rest : List String}
  {place other : Location × Entry}

theorem Leads.of_dot (leads : Leads t n l ("." :: rest) place) : Leads t n l rest place := by
  generalize dot : "." = name at leads
  cases leads with
  | dot onward => exact onward
  | up => exact absurd dot (by decide)
  | enter step => exact absurd dot.symm step.notHere
  | file step => exact absurd dot.symm step.notHere
  | follow step => exact absurd dot.symm step.notHere

theorem Leads.of_up (leads : Leads t n l (".." :: rest) place) :
    Leads t n l.dropLast rest place := by
  generalize up : ".." = name at leads
  cases leads with
  | dot => exact absurd up (by decide)
  | up onward => exact onward
  | enter step => exact absurd up.symm step.notUp
  | file step => exact absurd up.symm step.notUp
  | follow step => exact absurd up.symm step.notUp

/-- Each way has its number of links. -/
theorem Leads.count_unique (one : Leads t n l names place) (two : Leads t m l names other) :
    n = m := by
  induction one generalizing m other with
  | here =>
    cases two
    rfl
  | dot _ ih => exact ih two.of_dot
  | up _ ih => exact ih two.of_up
  | enter step found _ ih =>
    cases two with
    | dot => exact absurd rfl step.notHere
    | up => exact absurd rfl step.notUp
    | enter _ _ onward => exact ih onward
    | file _ here => cases found.symm.trans here
    | follow _ here => cases found.symm.trans here
  | file step found =>
    cases two with
    | dot => exact absurd rfl step.notHere
    | up => exact absurd rfl step.notUp
    | enter _ here => cases found.symm.trans here
    | file => rfl
    | follow _ here => cases found.symm.trans here
  | follow step found _ ih =>
    cases two with
    | dot => exact absurd rfl step.notHere
    | up => exact absurd rfl step.notUp
    | enter _ here => cases found.symm.trans here
    | file _ here => cases found.symm.trans here
    | follow _ here onward =>
      cases found.symm.trans here
      rw [ih onward]

end Links

end LintRun.FileTree
