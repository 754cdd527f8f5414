import LintRun.Proofs.Path.Spelling

/-!
# Resolved paths

What a path leads to is told by names only, whatever links are on the way: no text of a link leaves
a piece with a slash, and following the pieces leaves out dots and pieces of nothing.
-/
namespace LintRun.FileTree

def Unslashed (pieces : List String) : Prop := ∀ piece ∈ pieces, '/' ∉ piece.toList

section Unslashed

variable {first second : List String} {piece : String}

theorem Unslashed.append (left : Unslashed first) (right : Unslashed second) :
    Unslashed (first ++ second) := by
  intro piece member
  rcases List.mem_append.mp member with early | late
  · exact left piece early
  · exact right piece late

theorem Unslashed.head (both : Unslashed (piece :: second)) : '/' ∉ piece.toList :=
  both piece List.mem_cons_self

theorem Unslashed.tail (both : Unslashed (piece :: second)) : Unslashed second :=
  fun other member => both other (List.mem_cons_of_mem _ member)

theorem unslashed_piecesOf (s : String) : Unslashed (piecesOf s) := by
  intro piece member
  obtain ⟨cs, split, rfl⟩ := List.mem_map.mp member
  rw [String.toList_ofList]
  exact Path.not_mem_of_mem_splitSlashes _ _ split

end Unslashed

section Ways

variable {w : Way} {name : String} {pieces : List String}

theorem unslashed_enter (clean : Unslashed w.names) (plain : '/' ∉ name.toList) :
    Unslashed (w.enter name).names :=
  clean.append (by simpa [Unslashed] using plain)

theorem unslashed_leave (clean : Unslashed w.names) : Unslashed w.leave.names := by
  unfold Way.leave
  split
  · exact fun name member => clean name (List.dropLast_subset _ member)
  · exact unslashed_enter clean (by decide)

theorem unslashed_join (clean : Unslashed w.names) (more : Unslashed pieces) :
    Unslashed (w.join pieces).names := by
  unfold Way.join
  split
  · exact more
  · exact clean.append more

/-- Following pieces keeps names only. -/
theorem follow_isPlain {here : Location} (plain : (pathOf here).IsPlain)
    (clean : Unslashed pieces) : (pathOf (follow here pieces)).IsPlain := by
  induction pieces generalizing here with
  | nil => exact plain
  | cons piece rest ih =>
    refine ih ?_ clean.tail
    dsimp only
    split
    · exact plain
    · next kept =>
      split
      · exact fun name member => plain name (List.dropLast_subset _ member)
      · intro name member
        rcases List.mem_append.mp member with early | last
        · exact plain name early
        · obtain rfl := List.mem_singleton.mp last
          simp only [Bool.or_eq_true, decide_eq_true_eq, not_or] at kept
          exact ⟨kept.1, kept.2, clean.head⟩

theorem location_isPlain {cwd : Location} (plain : (pathOf cwd).IsPlain)
    (clean : Unslashed w.names) : (pathOf (w.location cwd)).IsPlain := by
  unfold Way.location
  split
  · exact follow_isPlain (Path.IsPlain.nil .root) clean
  · exact follow_isPlain plain clean

end Ways

/-- A link is followed from the root on, or from where it lies. -/
theorem unslashed_start {here : Way} (clean : Unslashed here.names) (rooted : Bool) :
    Unslashed (if rooted = true then ⟨true, []⟩ else here : Way).names := by
  split
  · exact fun _ member => absurd member List.not_mem_nil
  · exact clean

/-- No way that resolving comes to has a slash in its names. -/
theorem unslashed_resolveFrom {t : FileTree} {cwd : Location} {depth : Nat} {following : List Way}
    {here : Way} {pieces : List String} (clean : Unslashed here.names) (more : Unslashed pieces)
    (w : Way) (reached : t.resolveFrom cwd depth following here pieces = .ok w ∨
      t.resolveFrom cwd depth following here pieces = .error w) : Unslashed w.names := by
  fun_induction resolveFrom t cwd depth following here pieces generalizing w with
  | case1 =>
    rcases reached with same | none
    · exact Except.ok.inj same ▸ clean
    · cases none
  | case2 _ _ _ _ _ _ ih => exact ih clean more.tail w reached
  | case3 _ _ _ _ _ ih => exact ih (unslashed_leave clean) more.tail w reached
  | case4 _ _ _ _ _ _ _ target _ _ _ spot followed ihLink ih =>
    have clear := ihLink (unslashed_start clean _) (unslashed_piecesOf target) spot (.inl followed)
    exact ih clear more.tail w reached
  | case5 _ _ _ _ _ _ _ target _ _ _ stuck loop ih =>
    have clear := ih (unslashed_start clean _) (unslashed_piecesOf target) stuck (.inr loop)
    rcases reached with none | same
    · cases none
    · exact Except.error.inj same ▸ unslashed_join clear more.tail
  | case6 =>
    rcases reached with none | same
    · cases none
    · exact Except.error.inj same ▸ unslashed_join (unslashed_enter clean more.head) more.tail
  | case7 _ _ _ _ _ _ _ _ _ ih => exact ih (unslashed_enter clean more.head) more.tail w reached

/-- A path that has been resolved is absolute and told by names. -/
theorem resolve_isPlain {t : FileTree} {cwd : Location} {p resolved : Path}
    (plainDirectory : (pathOf cwd).IsPlain) (plain : p.IsPlain)
    (ends : t.resolve cwd p = .ok resolved) : resolved.isAbsolute = true ∧ resolved.IsPlain := by
  have clean : Unslashed p.names := fun name member => (plain name member).2.2
  have nothing : Unslashed (Way.mk p.isAbsolute []).names :=
    fun _ member => absurd member List.not_mem_nil
  have spot (w : Way) (reached : t.resolveFrom cwd (t.linkCount * (cwd.length + 3)) []
      ⟨p.isAbsolute, []⟩ p.names = .ok w ∨ t.resolveFrom cwd (t.linkCount * (cwd.length + 3)) []
      ⟨p.isAbsolute, []⟩ p.names = .error w) : (pathOf (w.location cwd)).IsPlain :=
    location_isPlain plainDirectory (unslashed_resolveFrom nothing clean w reached)
  unfold resolve at ends
  split at ends
  · cases ends
  · split at ends
    · next w reached =>
      obtain rfl := Except.ok.inj ends
      exact ⟨rfl, spot w (.inl reached)⟩
    · next w stuck =>
      dsimp only at ends
      split at ends
      · cases ends
      · obtain rfl := Except.ok.inj ends
        exact ⟨rfl, spot w (.inr stuck)⟩

end LintRun.FileTree
