import Mathlib.Data.List.Induction
import Mathlib.Data.List.Nodup
import LintRun.Value

/-!
# Entries under keys

What a look-up finds, and where it does not depend on the order of entries: an entry whose key no
other entry has is found wherever it stands (`get?_of_perm`).
-/
namespace LintRun.Entries

variable {α : Type}

theorem mem_of_get? (key : String) (a : α) (es : List (String × α))
    (found : get? key es = some a) : (key, a) ∈ es := by
  induction es with
  | nil => cases found
  | cons e es ih =>
    by_cases same : e.1 = key
    · simp only [get?, if_pos same, Option.some.injEq] at found
      simp [← same, ← found]
    · simp only [get?, if_neg same] at found
      exact .tail _ (ih found)

theorem get?_of_mem {key : String} {a : α} {es : List (String × α)} (member : (key, a) ∈ es)
    (only : ∀ e ∈ es, e.1 = key → e.2 = a) : get? key es = some a := by
  induction es with
  | nil => cases member
  | cons e es ih =>
    by_cases same : e.1 = key
    · rw [get?, if_pos same, only e (by simp) same]
    · rw [get?, if_neg same]
      refine ih ?_ fun x inside => only x (by simp [inside])
      exact (List.mem_cons.mp member).resolve_left fun first => same (by rw [← first])

theorem isSome_get?_iff (key : String) (es : List (String × α)) :
    (get? key es).isSome = true ↔ key ∈ es.map Prod.fst := by
  induction es with
  | nil => simp [get?]
  | cons e es ih =>
    by_cases same : e.1 = key
    · simp [get?, same]
    · simp [get?, same, ih, Ne.symm same]

/-- Of entries that are put in one after the other, the last one under a key is there. -/
theorem get?_ofList (key : String) (es : List (String × α)) :
    get? key (ofList es) = ((es.filter fun e => e.1 == key).getLast?).map Prod.snd := by
  induction es using List.reverseRecOn with
  | nil => rfl
  | append_singleton es e ih =>
    have last : ofList (es ++ [e]) = insert e.1 e.2 (ofList es) := by simp [ofList]
    rw [last]
    by_cases same : e.1 = key
    · subst same
      simp [get?_insert_self]
    · rw [get?_insert_of_ne (Ne.symm same), ih]
      simp [same]

theorem get?_eq_none_iff (key : String) (es : List (String × α)) :
    get? key es = none ↔ key ∉ es.map Prod.fst := by
  rw [← isSome_get?_iff, Bool.not_eq_true, Option.isSome_eq_false_iff, Option.isNone_iff_eq_none]

theorem get?_erase_of_ne {key other : String} (differ : key ≠ other) (es : List (String × α)) :
    get? key (erase other es) = get? key es := by
  induction es with
  | nil => rfl
  | cons e es ih =>
    unfold erase at ih ⊢
    by_cases gone : e.1 = other
    · have differs : e.1 ≠ key := fun same => differ (same ▸ gone)
      rw [List.filter_cons_of_neg (by simpa using gone), ih, get?, if_neg differs]
    · rw [List.filter_cons_of_pos (by simpa using gone), get?, get?, ih]

section Order

variable {es known others : List (String × α)} (perm : es.Perm (known ++ others))

include perm

/-- Among entries with different keys, and others under further keys, an entry is found wherever
it stands. -/
theorem get?_of_perm (distinct : (known.map Prod.fst).Nodup) {key : String} {a : α}
    (member : (key, a) ∈ known) (further : ∀ e ∈ others, e.1 ≠ key) : get? key es = some a := by
  refine get?_of_mem (perm.mem_iff.mpr (List.mem_append_left _ member)) fun e inside same => ?_
  rcases List.mem_append.mp (perm.mem_iff.mp inside) with here | there
  · exact congrArg Prod.snd (List.inj_on_of_nodup_map distinct here member same)
  · exact absurd same (further e there)

/-- A key that none of the entries has is not found. -/
theorem get?_eq_none_of_perm {key : String} (unknown : key ∉ known.map Prod.fst)
    (further : ∀ e ∈ others, e.1 ≠ key) : get? key es = none := by
  rw [get?_eq_none_iff, (perm.map Prod.fst).mem_iff, List.map_append, List.mem_append]
  rintro (here | there)
  · exact unknown here
  · obtain ⟨e, inside, same⟩ := List.mem_map.mp there
    exact further e inside same

end Order

theorem insert_of_not_mem (key : String) (v : α) (done : List (String × α))
    (absent : key ∉ done.map Prod.fst) : insert key v done = done ++ [(key, v)] := by
  induction done with
  | nil => rfl
  | cons e done ih =>
    rw [List.map_cons, List.mem_cons, not_or] at absent
    simp only [insert, if_neg (Ne.symm absent.1), ih absent.2, List.cons_append]

/-- Entries under different keys are put in as they are. -/
theorem ofList_of_nodup (es : List (String × α)) (distinct : (es.map Prod.fst).Nodup) :
    ofList es = es := by
  have put (done entries : List (String × α)) (distinct : ((done ++ entries).map Prod.fst).Nodup) :
      entries.foldl (fun done e => insert e.1 e.2 done) done = done ++ entries := by
    induction entries generalizing done with
    | nil => simp
    | cons e entries ih =>
      have absent : e.1 ∉ done.map Prod.fst := by
        rw [List.map_append, List.nodup_append] at distinct
        exact fun member => distinct.2.2 e.1 member e.1 (by simp) rfl
      rw [List.foldl_cons, insert_of_not_mem e.1 e.2 done absent, ih _ (by simpa using distinct)]
      simp
  exact put [] es distinct

end LintRun.Entries
