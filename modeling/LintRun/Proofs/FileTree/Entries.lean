import LintRun.Proofs.FileTree.Leads

/-!
# What lies where

A tree lists what lies at a location, and what it lists below a location makes that a directory.
Putting something somewhere keeps what lies elsewhere, and a directory that is made keeps all.
-/
namespace LintRun.FileTree

variable (t : FileTree)

def listed? (k : Location) : Option Entry := (t.entries.find? fun e => e.1 == k).map Prod.snd

theorem entry_root : t.entry? [] = some .directory := rfl

theorem entry_eq {k : Location} (below : k ≠ []) :
    t.entry? k = (t.listed? k).or
      (if t.entries.any fun e => k.isPrefixOf e.1 then some .directory else none) := by
  unfold entry? listed?
  rw [if_neg (by simpa using below)]
  cases t.entries.find? fun e => e.1 == k <;> rfl

/-- What is no directory is listed. -/
theorem entry_eq_iff {k : Location} {e : Entry} (proper : e ≠ .directory) :
    t.entry? k = some e ↔ k ≠ [] ∧ t.listed? k = some e := by
  by_cases root : k = []
  · subst root
    rw [entry_root]
    simpa using Ne.symm proper
  · rw [entry_eq t root]
    cases t.listed? k with
    | some old => simp [root]
    | none =>
      rw [Option.none_or]
      split <;> simp [Ne.symm proper]

section Put

variable {t} {k l : Location} {e : Entry}

theorem listed?_put : (t.put l e).listed? k = if k = l then some e else t.listed? k := by
  unfold listed? put
  dsimp only
  rw [List.find?_append, List.find?_filter]
  by_cases same : k = l
  · subst same
    have none : (t.entries.find? fun x => decide ((x.1 != k) = true ∧ (x.1 == k) = true)) = none :=
      List.find?_eq_none.mpr (by simp)
    rw [none]
    simp
  · have other : ¬ l = k := Ne.symm same
    have unfiltered : (fun x : Location × Entry =>
        decide ((x.1 != l) = true ∧ (x.1 == k) = true)) = fun x => x.1 == k := by
      funext x
      by_cases found : x.1 = k <;> simp [found, same]
    rw [unfiltered, if_neg same]
    simp [other]

theorem entry_put_self (below : l ≠ []) : entry? (t.put l e) l = some e := by
  rw [entry_eq _ below, listed?_put, if_pos rfl, Option.some_or]

/-- Putting something somewhere keeps what lies elsewhere. -/
theorem entry_put_of_some {old : Entry} (found : t.entry? k = some old) (other : k ≠ l) :
    entry? (t.put l e) k = some old := by
  by_cases root : k = []
  · rwa [root, entry_root] at found ⊢
  · rw [entry_eq _ root] at found ⊢
    rw [listed?_put, if_neg other]
    cases listing : t.listed? k with
    | some here => rwa [listing] at found
    | none =>
      rw [listing, Option.none_or] at found
      obtain ⟨covered, made⟩ := Option.ite_none_right_eq_some.mp found
      rw [← made, Option.none_or]
      obtain ⟨x, member, onWay⟩ := List.any_eq_true.mp covered
      refine if_pos (List.any_eq_true.mpr ?_)
      by_cases taken : x.1 = l
      · exact ⟨(l, e), List.mem_append_right _ (List.mem_singleton_self _), taken ▸ onWay⟩
      · have stays : x ∈ t.entries.filter (fun y => y.1 != l) := by
          simpa [taken] using member
        exact ⟨x, List.mem_append_left _ stays, onWay⟩

/-- What is put is the only new link there can be. -/
theorem link_of_put {target : String} (link : entry? (t.put l e) k = some (.link target))
    (noLink : e ≠ .link target) : t.entry? k = some (.link target) := by
  have proper : Entry.link target ≠ .directory := nofun
  rw [entry_eq_iff _ proper, listed?_put] at link
  rw [entry_eq_iff _ proper]
  split at link
  · exact absurd (Option.some.inj link.2) noLink
  · exact link

theorem IsClear.put {here : Location} {names : List String} {b : ByteArray} {x : Bool}
    (clear : t.IsClear here names) : (t.put l (.file b x)).IsClear here names :=
  fun front target within link => clear front target within (link_of_put link nofun)

end Put

/-- A tree that has all that another one has, and no more links. -/
structure Extends (t u : FileTree) : Prop where
  kept : ∀ k e, t.entry? k = some e → u.entry? k = some e
  links : ∀ k target, u.entry? k = some (.link target) → t.entry? k = some (.link target)

namespace Extends

variable {t} {u v : FileTree}

theorem refl (t : FileTree) : Extends t t := ⟨fun _ _ => id, fun _ _ => id⟩

theorem trans (first : Extends t u) (second : Extends u v) : Extends t v :=
  ⟨fun k e there => second.kept k e (first.kept k e there),
    fun k target link => first.links k target (second.links k target link)⟩

theorem isClear (more : Extends t u) {here : Location} {names : List String}
    (clear : t.IsClear here names) : u.IsClear here names :=
  fun front target within link => clear front target within (more.links _ _ link)

theorem leads (more : Extends t u) {names : List String} {place : Location × Entry}
    (leads : Leads t 0 [] names place) (down : GoesDown names) : Leads u 0 [] names place :=
  leads.mono down fun _ _ _ => more.kept _ _

theorem makeDirectory (t : FileTree) (l : Location) : Extends t (t.makeDirectory l) := by
  unfold FileTree.makeDirectory
  split
  · exact .refl t
  · next free =>
    constructor
    · intro k e there
      refine entry_put_of_some there ?_
      rintro rfl
      exact free (by rw [there]; rfl)
    · exact fun k target link => link_of_put link nofun

end Extends

section Files

variable {t} {k l : Location} {b : ByteArray} {x : Bool}

/-- A listed file is among the files below every location on the way to it. -/
theorem mem_filesBelow (found : t.entry? k = some (.file b x)) (below : l <+: k) :
    (k.drop l.length, b) ∈ t.filesBelow l := by
  obtain ⟨-, listing⟩ := (entry_eq_iff t (by nofun)).mp found
  obtain ⟨⟨spot, e⟩, first, shown⟩ := Option.map_eq_some_iff.mp listing
  have spotted : spot = k := by simpa using List.find?_some first
  subst spotted shown
  refine List.mem_filterMap.mpr ⟨_, List.mem_of_find?_eq_some first, ?_⟩
  exact if_pos (List.isPrefixOf_iff_prefix.mpr below)

end Files

end LintRun.FileTree
