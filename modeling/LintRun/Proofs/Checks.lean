import Mathlib.Data.List.Forall2
import LintRun.Schema
import LintRun.Proofs.Decimal.Digits
import LintRun.Proofs.Entries

/-!
# What checks let through

A check that combines others succeeds when these do (`apply_eq_ok`, `items_cons_eq_ok`), so what a
field ends up with is what one of the entries was checked to be, and only the entry that is found
under its key counts (`required_congr`, `requiredEither_congr`). An integer that is let through may
have been written as a switch, a float or a text, but it is long only if it was given as a long
integer (`int_isLong`).
-/
namespace LintRun

namespace Schema

namespace Checked

variable {α β : Type}

theorem under_eq_ok (s : Step) (checked : Checked α) (a : α) :
    under s checked = .ok a ↔ checked = .ok a := by
  cases checked <;> simp [under]

theorem apply_eq_ok (f : Checked (α → β)) (checked : Checked α) (b : β) :
    apply f checked = .ok b ↔ ∃ g a, f = .ok g ∧ checked = .ok a ∧ g a = b := by
  cases f <;> cases checked <;> simp [apply, both, Except.map]

/-- Both checks let the same value through, or neither lets any through. -/
theorem toOption_apply (f : Checked (α → β)) (checked : Checked α) :
    (apply f checked).toOption = f.toOption.bind fun g => checked.toOption.map g := by
  cases f <;> cases checked <;> rfl

theorem isOk_ok (a : α) : (Except.ok a : Checked α).isOk = true := rfl

theorem isOk_apply (f : Checked (α → β)) (checked : Checked α) :
    (apply f checked).isOk = (f.isOk && checked.isOk) := by
  cases f <;> cases checked <;> rfl

theorem isOk_under (s : Step) (checked : Checked α) : (under s checked).isOk = checked.isOk := by
  cases checked <;> rfl

theorem items_cons_eq_ok (check : Value → Checked α) (i : Nat) (v : Value) (vs : List Value)
    (as : List α) :
    items check i (v :: vs) = .ok as ↔
      ∃ b bs, check v = .ok b ∧ items check (i + 1) vs = .ok bs ∧ b :: bs = as := by
  cases first : check v <;> cases others : items check (i + 1) vs <;>
    simp [items, first, others, under, both, Except.map]

/-- Items are read one by one. -/
theorem items_of_forall₂ {check : Value → Checked α} {as : List α} {vs : List Value}
    (each : List.Forall₂ (fun a v => check v = .ok a) as vs) (i : Nat) :
    items check i vs = .ok as := by
  induction each generalizing i with
  | nil => rfl
  | cons first _ ih => exact (items_cons_eq_ok _ _ _ _ _).mpr ⟨_, _, first, ih (i + 1), rfl⟩

theorem items_congr {check : Value → Checked α} {vs ws : List Value}
    (each : List.Forall₂ (fun v w => check v = check w) vs ws) (i : Nat) :
    items check i vs = items check i ws := by
  induction each generalizing i with
  | nil => rfl
  | cons first _ ih => rw [items, items, first, ih]

/-- Each item that is let through is what one of the values was checked to be. -/
theorem exists_of_items (check : Value → Checked α) (i : Nat) (vs : List Value) (as : List α)
    (checked : items check i vs = .ok as) : ∀ a ∈ as, ∃ v ∈ vs, check v = .ok a := by
  induction vs generalizing i as with
  | nil =>
    cases checked
    simp
  | cons v vs ih =>
    obtain ⟨b, bs, first, others, rfl⟩ := (items_cons_eq_ok check i v vs as).mp checked
    intro a member
    rcases List.mem_cons.mp member with rfl | later
    · exact ⟨v, by simp, first⟩
    · obtain ⟨w, inside, same⟩ := ih (i + 1) bs others a later
      exact ⟨w, by simp [inside], same⟩

end Checked

section Fields

variable {α : Type} (check : Value → Checked α) (key : String) (t : Table) (a : α)

theorem exists_of_required (checked : required check key t = .ok a) :
    ∃ e ∈ t, check e.2 = .ok a := by
  rw [required, Checked.under_eq_ok] at checked
  split at checked
  · next v found => exact ⟨(key, v), Entries.mem_of_get? key v t found, checked⟩
  · cases checked

theorem exists_of_requiredEither (other : String)
    (checked : requiredEither check key other t = .ok a) : ∃ e ∈ t, check e.2 = .ok a := by
  unfold requiredEither at checked
  split at checked
  · exact exists_of_required check other t a checked
  · exact exists_of_required check key t a checked

theorem exists_of_withDefault (absent : α) (checked : withDefault check key absent t = .ok a) :
    a = absent ∨ ∃ e ∈ t, check e.2 = .ok a := by
  unfold withDefault at checked
  split at checked
  · next v found =>
    rw [Checked.under_eq_ok] at checked
    exact .inr ⟨(key, v), Entries.mem_of_get? key v t found, checked⟩
  · cases checked
    exact .inl rfl

end Fields

section Lookups

variable {α : Type} {check : Value → Checked α} {key other used : String} {t u : Table}

theorem required_of_get? {v : Value} {a : α} (found : Entries.get? key t = some v)
    (checked : check v = .ok a) : required check key t = .ok a := by
  rw [required, found]
  exact (Checked.under_eq_ok _ _ a).mpr checked

/-- A field is read under the spelling that is used if the other one is not there. -/
theorem requiredEither_of_get? {v : Value} {a : α} (spelled : used = key ∨ used = other)
    (found : Entries.get? used t = some v) (alone : used ≠ key → Entries.get? key t = none)
    (checked : check v = .ok a) : requiredEither check key other t = .ok a := by
  unfold requiredEither
  by_cases first : used = key
  · subst first
    rw [found]
    exact required_of_get? found checked
  · obtain rfl := spelled.resolve_left first
    rw [alone first, found]
    exact required_of_get? found checked

/-- Only what stands under its key matters for a field. -/
theorem required_congr (same : Entries.get? key t = Entries.get? key u) :
    required check key t = required check key u := by
  rw [required, required, same]

/-- What stands under the second spelling of a key matters only if the first one is not there. -/
theorem requiredEither_congr (same : Entries.get? key t = Entries.get? key u)
    (second : (Entries.get? key t).isSome = true ∨ Entries.get? other t = Entries.get? other u) :
    requiredEither check key other t = requiredEither check key other u := by
  unfold requiredEither
  rw [required_congr same]
  rcases second with there | sameOther
  · have first : (Entries.get? key t).isNone = false := by
      rwa [Option.isNone_eq_false_iff]
    rw [← same, first]
    rfl
  · rw [← same, sameOther, required_congr sameOther]

/-- The same for a field with a default. -/
theorem withDefault_congr (check : Value → Checked α) (absent : α)
    (same : Entries.get? key t = Entries.get? key u) :
    withDefault check key absent t = withDefault check key absent u := by
  rw [withDefault, withDefault, same]

theorem isOk_withDefault_iff (check : Value → Checked α) (key : String) (absent : α) (t : Table) :
    (withDefault check key absent t).isOk = true ↔
      ∀ v, Entries.get? key t = some v → (check v).isOk = true := by
  unfold withDefault
  cases Entries.get? key t with
  | none => simp [Checked.isOk_ok]
  | some v => simp [Checked.isOk_under]

end Lookups

/-- An integer is long only if it is given as one. -/
theorem int_isLong (v : Value) (n : Int) (checked : int v = .ok n)
    (short : ∀ m, v = .int m → Excess.isLong m = false) : Excess.isLong n = false := by
  unfold int at checked
  split at checked
  · cases checked
    split <;> exact Decimal.isLong_eq_false_of_lt _ (by decide)
  · next m =>
    cases checked
    exact short n rfl
  · split at checked
    · cases checked
    · split at checked
      · cases checked
      · next m _ =>
        split at checked
        · next fits =>
          cases checked
          have word : Int.pow 2 63 = 9223372036854775808 := by decide
          simp only [word, Bool.and_eq_true, decide_eq_true_eq] at fits
          exact Decimal.isLong_eq_false_of_lt n (by omega)
        · cases checked
  · split at checked
    · next m spelled =>
      cases checked
      exact Decimal.lenientInt_isLong _ n spelled
    · cases checked
    · cases checked
  · cases checked

end Schema

end LintRun
