import LintRun.Proofs.Decoded
import LintRun.Tally

/-!
# The budget of a run

A limit lets a run report the front part of all its findings. The tally keeps to it batch by
batch: it cuts each batch down to what the batches before have left, counts what was reported,
and remembers that the limit was reached. `Tally.after` is what all this amounts to, said of the
records alone, and one step of the counters takes it from the records before to the next ones.
-/
namespace LintRun

section Limits

variable {α : Type}

/-- The front part of a list within a limit; a limit of zero or less is none. -/
def upTo (limit : Int) (l : List α) : List α := if limit ≤ 0 then l else l.take limit.toNat

/-- What a limit lets pass of a list when `spent` elements came before it. -/
def share (limit : Int) (spent : Nat) (l : List α) : List α :=
  if limit ≤ 0 then l else l.take (limit - spent).toNat

/-- A limit is spent once so many elements came; without a limit it never is. -/
def IsSpent (limit : Int) (count : Nat) : Prop := 0 < limit ∧ limit ≤ count

instance (limit : Int) (count : Nat) : Decidable (IsSpent limit count) :=
  inferInstanceAs (Decidable (_ ∧ _))

theorem share_zero (limit : Int) (l : List α) : share limit 0 l = upTo limit l := by
  simp [share, upTo]

/-- A limit can be kept piece by piece. -/
theorem share_append (limit : Int) (spent : Nat) (first second : List α) :
    share limit spent (first ++ second) =
      share limit spent first ++ share limit (spent + first.length) second := by
  unfold share
  split
  · rfl
  · have left : (limit - spent).toNat - first.length =
        (limit - (spent + first.length : Nat)).toNat := by omega
    rw [List.take_append, left]

theorem upTo_append (limit : Int) (first second : List α) :
    upTo limit (first ++ second) = upTo limit first ++ share limit first.length second := by
  rw [← share_zero, share_append, share_zero, Nat.zero_add]

theorem share_prefix (limit : Int) (spent : Nat) (l : List α) : share limit spent l <+: l := by
  unfold share
  split
  · exact List.prefix_rfl
  · exact List.take_prefix _ _

/-- Nothing passes exactly if there is nothing, or the limit was spent before. -/
theorem share_eq_nil_iff (limit : Int) (spent : Nat) (l : List α) :
    share limit spent l = [] ↔ l = [] ∨ IsSpent limit spent := by
  unfold share IsSpent
  split
  · constructor
    · exact Or.inl
    · rintro (none | ⟨positive, -⟩)
      · exact none
      · omega
  · rw [List.take_eq_nil_iff, or_comm]
    exact or_congr_right (by omega)

theorem length_upTo_of_pos (limit : Int) (l : List α) (positive : 0 < limit) :
    ((upTo limit l).length : Int) = min limit l.length := by
  unfold upTo
  rw [if_neg (by omega), List.length_take]
  omega

/-- The elements that a limit lets pass spend it exactly if all elements do. -/
theorem isSpent_length_upTo (limit : Int) (l : List α) :
    IsSpent limit (upTo limit l).length ↔ IsSpent limit l.length := by
  apply and_congr_right
  intro positive
  have length := length_upTo_of_pos limit l positive
  omega

theorem not_isSpent_zero (limit : Int) : ¬ IsSpent limit 0 := by
  unfold IsSpent
  omega

/-- A limit that is spent stays spent: what was found only grows. -/
theorem IsSpent.append {limit : Int} {before : List Record}
    (spent : IsSpent limit (foundIn before).length) (later : List Record) :
    IsSpent limit (foundIn (before ++ later)).length := by
  unfold IsSpent at *
  rw [foundIn_append, List.length_append]
  omega

end Limits

namespace Tally

/-- The tally of a run after records whose findings were reported within the limit. -/
def after (limit : Int) (records : List Record) : Tally where
  limit := limit
  files := records.filter fun r => !r.found.isEmpty
  findings := foundIn records
  reported := (upTo limit (foundIn records)).length
  suppressed := decide (IsSpent limit (foundIn records).length)

theorem after_nil (limit : Int) : after limit [] = start limit := by
  simp [after, start, foundIn, upTo, not_isSpent_zero]

/-- No file has findings exactly if nothing was found. -/
theorem files_after_eq_nil_iff (limit : Int) (records : List Record) :
    (after limit records).files = [] ↔ foundIn records = [] := by
  simp [after, foundIn]

/-- Counting adds to the total; the limit counts as reached by the first total that spends it. -/
theorem markReported_eq (t : Tally) (count : Int) :
    t.markReported count =
      let spends := decide (0 < t.limit ∧ t.limit ≤ t.reported + count)
      ({ t with reported := t.reported + count, suppressed := t.suppressed || spends },
        !t.suppressed && spends) := by
  have sameTest : (0 < t.limit && !t.suppressed && t.limit ≤ t.reported + count) =
      (!t.suppressed && decide (0 < t.limit ∧ t.limit ≤ t.reported + count)) := by
    rw [Bool.decide_and, Bool.and_comm (decide (0 < t.limit)), Bool.and_assoc]
  simp only [markReported, sameTest]
  cases t.suppressed with
  | true => simp
  | false =>
    by_cases spends : 0 < t.limit ∧ t.limit ≤ t.reported + count <;> simp [spends]

section Step

variable (limit : Int) (before : List Record) (r : Record)

/-- A record without findings leaves the tally as it is. -/
theorem after_append_clean (clean : r.found = []) :
    after limit (before ++ [r]) = after limit before := by
  simp [after, clean]

/-- The batch that the counters let pass is what the limit leaves of it. -/
theorem reportable_record_after :
    ((after limit before).record r r.found).reportable r.found =
      share limit (foundIn before).length r.found := by
  have kept : ((after limit before).record r r.found).limit = limit ∧
      ((after limit before).record r r.found).reported = (upTo limit (foundIn before)).length := by
    unfold record
    split <;> exact ⟨rfl, rfl⟩
  unfold reportable share
  rw [kept.1, kept.2]
  split
  · rfl
  · have length := length_upTo_of_pos limit (foundIn before) (by omega)
    congr 1
    omega

/-- Once the limit is spent, a record only adds to what was found. -/
theorem record_after_of_isSpent (some : r.found ≠ [])
    (spent : IsSpent limit (foundIn before).length) :
    (after limit before).record r r.found = after limit (before ++ [r]) := by
  have counted : r.found.isEmpty = false := by simpa using some
  have still := spent.append [r]
  have nothing : share limit (foundIn before).length r.found = [] :=
    (share_eq_nil_iff _ _ _).mpr (.inr spent)
  have same : upTo limit (foundIn (before ++ [r])) = upTo limit (foundIn before) := by
    simp [upTo_append, nothing]
  simp only [record, counted, after, same, spent, still]
  simp [counted]

/-- Counting the batch of a record completes its step. The limit counts as reached exactly if it
was not spent before and is spent with all findings of the record. -/
theorem markReported_record_after (some : r.found ≠ []) :
    ((after limit before).record r r.found).markReported
        (share limit (foundIn before).length r.found).length =
      (after limit (before ++ [r]),
        decide (¬ IsSpent limit (foundIn before).length ∧
          IsSpent limit (foundIn (before ++ [r])).length)) := by
  have counted : r.found.isEmpty = false := by simpa using some
  have total : ((upTo limit (foundIn before)).length : Int) +
      (share limit (foundIn before).length r.found).length =
      (upTo limit (foundIn (before ++ [r]))).length := by
    simp [upTo_append]
  have crossing : decide (0 < limit ∧ limit ≤ (upTo limit (foundIn (before ++ [r]))).length) =
      decide (IsSpent limit (foundIn (before ++ [r])).length) :=
    decide_eq_decide.mpr (isSpent_length_upTo limit (foundIn (before ++ [r])))
  have latched : (decide (IsSpent limit (foundIn before).length) ||
      decide (IsSpent limit (foundIn (before ++ [r])).length)) =
      decide (IsSpent limit (foundIn (before ++ [r])).length) := by
    have grows : IsSpent limit (foundIn before).length →
        IsSpent limit (foundIn (before ++ [r])).length :=
      fun spent => spent.append [r]
    simpa using grows
  have recorded : (after limit before).record r r.found =
      ⟨limit, (after limit (before ++ [r])).files, foundIn (before ++ [r]),
        (upTo limit (foundIn before)).length, decide (IsSpent limit (foundIn before).length)⟩ := by
    simp [record, after, counted]
  rw [recorded, markReported_eq]
  simp only [total, crossing, latched]
  simp [after]

end Step

end Tally

end LintRun
