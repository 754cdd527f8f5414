import Mathlib.Data.List.Infix
import LintRun.Proofs.Judging.Budget

/-!
# The operations of a tally

The stage that reports uses a tally in one fixed order, but what an operation gives back does not
depend on it. What was recorded and what was counted as reported are kept apart: the final message
depends on the records alone, and the budget on the counts alone (`Reflects`). Counts may be
negative, so the total may fall below the limit again; the limit is still reached only once
(`replies_in_any_order`).
-/
namespace LintRun.Tally

inductive Operation where
  | record (file : Record) (fs : List Finding)
  | reportable (fs : List Finding)
  | markReported (count : Int)
  | summarize (summarizes : Bool)

inductive Reply where
  | nothing
  | findings (fs : List Finding)
  /-- Whether the limit is reached for the first time. -/
  | reached (first : Bool)
  | summary (s : Except Excess (Option Summary))

/-- One operation: the tally after it, and what it gives back. -/
def step (t : Tally) : Operation → Tally × Reply
  | .record file fs => (t.record file fs, .nothing)
  | .reportable fs => (t, .findings (t.reportable fs))
  | .markReported count =>
    let (t, first) := t.markReported count
    (t, .reached first)
  | .summarize summarizes => (t, .summary (t.summary? summarizes))

/-- Operations one after the other: the tally after them, and what each one gave back. -/
def run (t : Tally) : List Operation → Tally × List Reply
  | [] => (t, [])
  | o :: rest =>
    let (t, reply) := t.step o
    let (t, replies) := t.run rest
    (t, reply :: replies)

namespace Operation

/-- The file and the findings that an operation records. -/
def recorded? : Operation → Option (Record × List Finding)
  | .record file fs => some (file, fs)
  | _ => none

def count : Operation → Int
  | .markReported n => n
  | _ => 0

end Operation

def recorded (os : List Operation) : List (Record × List Finding) :=
  os.filterMap Operation.recorded?

def total (os : List Operation) : Int := os.foldl (fun sum o => sum + o.count) 0

/-- The total reaches the limit after some of the first operations; later counts may take it back
below. -/
def EverReaches (limit : Int) (os : List Operation) : Prop :=
  ∃ front, front <+: os ∧ 0 < limit ∧ limit ≤ total front

/-- The final message over records: it covers their findings up to the limit. -/
def summaryOfRecords (limit : Int) (summarizes : Bool) (calls : List (Record × List Finding)) :
    Except Excess (Option Summary) :=
  let found := calls.flatMap Prod.snd
  if found.isEmpty then .ok none
  else
    (summaryOf summarizes (upTo limit found) (found.length - (upTo limit found).length)).map some

/-- A tally is what operations make of a fresh one. -/
structure Reflects (limit : Int) (os : List Operation) (t : Tally) : Prop where
  limit_eq : t.limit = limit
  files_eq : t.files = ((recorded os).filter fun c => !c.2.isEmpty).map Prod.fst
  findings_eq : t.findings = (recorded os).flatMap Prod.snd
  reported_eq : t.reported = total os
  suppressed_iff : t.suppressed = true ↔ EverReaches limit os

section Steps

variable {limit : Int} {os : List Operation} {t : Tally}

theorem total_append_singleton (os : List Operation) (o : Operation) :
    total (os ++ [o]) = total os + o.count := by
  simp [total]

theorem recorded_append_singleton (os : List Operation) (o : Operation) :
    recorded (os ++ [o]) = recorded os ++ o.recorded?.toList := by
  cases o <;> simp [recorded, Operation.recorded?]

/-- The limit has been reached if it was before, or the total reaches it now. -/
theorem everReaches_append_singleton (o : Operation) :
    EverReaches limit (os ++ [o]) ↔
      EverReaches limit os ∨ 0 < limit ∧ limit ≤ total os + o.count := by
  rw [← total_append_singleton]
  constructor
  · rintro ⟨front, isPrefix, reaches⟩
    rcases List.prefix_concat_iff.mp isPrefix with rfl | earlier
    · exact .inr reaches
    · exact .inl ⟨front, earlier, reaches⟩
  · rintro (⟨front, isPrefix, reaches⟩ | reaches)
    · exact ⟨front, isPrefix.trans (List.prefix_append _ _), reaches⟩
    · exact ⟨_, List.prefix_rfl, reaches⟩

/-- An operation that counts nothing does not reach the limit. -/
theorem everReaches_of_count_zero {o : Operation} (silent : o.count = 0) :
    EverReaches limit (os ++ [o]) ↔ EverReaches limit os := by
  rw [everReaches_append_singleton, silent, Int.add_zero, or_iff_left_iff_imp]
  exact fun reaches => ⟨os, List.prefix_rfl, reaches⟩

theorem start_reflects (limit : Int) : Reflects limit [] (start limit) where
  limit_eq := rfl
  files_eq := rfl
  findings_eq := rfl
  reported_eq := rfl
  suppressed_iff := by
    refine iff_of_false Bool.false_ne_true ?_
    rintro ⟨front, isPrefix, positive, reaches⟩
    rw [List.prefix_nil.mp isPrefix] at reaches
    exact absurd reaches (Int.not_le.mpr positive)

/-- An operation that neither records nor counts leaves the tally as it is. -/
theorem Reflects.idle (reflects : Reflects limit os t) {o : Operation}
    (unrecorded : o.recorded? = none) (uncounted : o.count = 0) : Reflects limit (os ++ [o]) t where
  limit_eq := reflects.limit_eq
  files_eq := by simp [recorded_append_singleton, unrecorded, reflects.files_eq]
  findings_eq := by simp [recorded_append_singleton, unrecorded, reflects.findings_eq]
  reported_eq := by rw [total_append_singleton, uncounted, Int.add_zero, reflects.reported_eq]
  suppressed_iff := by rw [everReaches_of_count_zero uncounted, reflects.suppressed_iff]

theorem Reflects.record (reflects : Reflects limit os t) (file : Record) (fs : List Finding) :
    Reflects limit (os ++ [.record file fs]) (t.record file fs) := by
  have counted : Operation.count (.record file fs) = 0 := rfl
  have kept : (t.record file fs).limit = t.limit ∧ (t.record file fs).reported = t.reported ∧
      (t.record file fs).suppressed = t.suppressed := by
    unfold Tally.record
    split <;> exact ⟨rfl, rfl, rfl⟩
  have added : (t.record file fs).files = t.files ++ (if fs.isEmpty then [] else [file]) ∧
      (t.record file fs).findings = t.findings ++ fs := by
    unfold Tally.record
    split
    · next none => simp [List.isEmpty_iff.mp none]
    · next some => simp
  obtain ⟨sameLimit, sameTotal, sameLatch⟩ := kept
  refine ⟨sameLimit.trans reflects.limit_eq, ?_, ?_, ?_, ?_⟩
  · rw [added.1, reflects.files_eq, recorded_append_singleton]
    cases none : fs.isEmpty <;> simp [Operation.recorded?, none]
  · rw [added.2, reflects.findings_eq, recorded_append_singleton]
    simp [Operation.recorded?]
  · rw [sameTotal, reflects.reported_eq, total_append_singleton, counted, Int.add_zero]
  · rw [sameLatch, reflects.suppressed_iff, everReaches_of_count_zero counted]

theorem Reflects.markReported (reflects : Reflects limit os t) (n : Int) :
    Reflects limit (os ++ [.markReported n]) (t.markReported n).1 := by
  rw [markReported_eq]
  refine ⟨reflects.limit_eq, ?_, ?_, ?_, ?_⟩
  · simp [recorded_append_singleton, Operation.recorded?, reflects.files_eq]
  · simp [recorded_append_singleton, Operation.recorded?, reflects.findings_eq]
  · simp [total_append_singleton, Operation.count, reflects.reported_eq]
  · rw [everReaches_append_singleton, ← reflects.suppressed_iff]
    simp [Operation.count, reflects.limit_eq, reflects.reported_eq]

/-- What one operation preserves. -/
theorem Reflects.step (reflects : Reflects limit os t) (o : Operation) :
    Reflects limit (os ++ [o]) (t.step o).1 := by
  cases o with
  | record file fs => exact reflects.record file fs
  | reportable fs => exact reflects.idle rfl rfl
  | markReported n => exact reflects.markReported n
  | summarize summarizes => exact reflects.idle rfl rfl

/-- What a whole run preserves. -/
theorem Reflects.run (reflects : Reflects limit os t) (later : List Operation) :
    Reflects limit (os ++ later) (t.run later).1 := by
  induction later generalizing os t with
  | nil => rwa [List.append_nil]
  | cons o rest ih =>
    have next := ih (reflects.step o)
    rwa [List.append_assoc, List.singleton_append] at next

end Steps

section Replies

variable {limit : Int} {os : List Operation} {t : Tally}

theorem Reflects.reportable_eq (reflects : Reflects limit os t) (fs : List Finding) :
    t.reportable fs = if limit ≤ 0 then fs else fs.take (max 0 (limit - total os)).toNat := by
  have budget : (max 0 (limit - total os)).toNat = (limit - total os).toNat := by omega
  rw [reportable, reflects.limit_eq, reflects.reported_eq, budget]

/-- The limit is reached for the first time exactly if the total reaches it now and was below it
after all operations before. -/
theorem Reflects.reached_iff (reflects : Reflects limit os t) (n : Int) :
    (t.markReported n).2 = true ↔
      0 < limit ∧ limit ≤ total os + n ∧ ∀ front, front <+: os → total front < limit := by
  have below : t.suppressed = false ∧ 0 < limit ↔
      0 < limit ∧ ∀ front, front <+: os → total front < limit := by
    rw [← Bool.not_eq_true, reflects.suppressed_iff, and_comm]
    refine and_congr_right fun positive => ?_
    simp [EverReaches, positive]
  rw [markReported_eq, reflects.limit_eq, reflects.reported_eq]
  simp only [Bool.and_eq_true, Bool.not_eq_true', decide_eq_true_eq]
  tauto

theorem Reflects.summary_eq (reflects : Reflects limit os t) (summarizes : Bool) :
    t.summary? summarizes = summaryOfRecords limit summarizes (recorded os) := by
  have covered : t.covered = upTo limit ((recorded os).flatMap Prod.snd) := by
    rw [Tally.covered, upTo, reflects.limit_eq, reflects.findings_eq]
  have without : t.files.isEmpty = ((recorded os).flatMap Prod.snd).isEmpty := by
    rw [Bool.eq_iff_iff, List.isEmpty_iff, List.isEmpty_iff, reflects.files_eq, List.map_eq_nil_iff,
      List.filter_eq_nil_iff, List.flatMap_eq_nil_iff]
    simp
  rw [summary?, summaryOfRecords, without, ignored, covered, reflects.findings_eq]

end Replies

theorem run_append (t : Tally) (before later : List Operation) :
    t.run (before ++ later) =
      (((t.run before).1.run later).1, (t.run before).2 ++ ((t.run before).1.run later).2) := by
  induction before generalizing t with
  | nil => rfl
  | cons o rest ih => simp [run, ih]

theorem length_replies (t : Tally) (os : List Operation) : (t.run os).2.length = os.length := by
  induction os generalizing t with
  | nil => rfl
  | cons o rest ih => simp [run, ih]

/-- An operation answers from the tally that those before it have left. -/
theorem reply_at (t : Tally) (before later : List Operation) (o : Operation) :
    (t.run (before ++ o :: later)).2[before.length]? = some ((t.run before).1.step o).2 := by
  rw [run_append, List.getElem?_append_right (by rw [length_replies]), length_replies]
  simp [run]

/-- The records among operations are all that is recorded by them. -/
theorem recorded_filter (os : List Operation) :
    recorded (os.filter fun o => o.recorded?.isSome) = recorded os := by
  rw [recorded, recorded, List.filterMap_filter]
  congr 1
  funext o
  cases o <;> rfl

/-- What each operation of a run on a fresh tally gives back, whichever operations come before and
after it. Counting tells that the limit is reached exactly if the total is at least a positive
limit, and was not after any of the operations before. What may be reported is what the limit leaves
of the given findings, and asking for it changes nothing. The final message is that of the records
before; without the other operations it is the same. -/
theorem replies_in_any_order (limit : Int) (before later : List Operation) :
    let outcome o := (start limit).run (before ++ o :: later)
    let reply o := (outcome o).2[before.length]?
    (∀ n, ∃ first, reply (.markReported n) = some (.reached first) ∧
        (first = true ↔ 0 < limit ∧ limit ≤ total before + n ∧
          ∀ front, front <+: before → total front < limit)) ∧
      (∀ fs, reply (.reportable fs) = some (.findings
          (if limit ≤ 0 then fs else fs.take (max 0 (limit - total before)).toNat)) ∧
        (outcome (.reportable fs)).1 = ((start limit).run (before ++ later)).1) ∧
      ∀ summarizes,
        reply (.summarize summarizes) =
            some (.summary (summaryOfRecords limit summarizes (recorded before))) ∧
          (outcome (.summarize summarizes)).1 = ((start limit).run (before ++ later)).1 ∧
          ((start limit).run (before.filter fun o => o.recorded?.isSome)).1.summary? summarizes =
            summaryOfRecords limit summarizes (recorded before) := by
  intro outcome reply
  have reflects := (start_reflects limit).run before
  rw [List.nil_append] at reflects
  have replied (o : Operation) : reply o = some (((start limit).run before).1.step o).2 :=
    reply_at (start limit) before later o
  refine ⟨fun n => ?_, fun fs => ⟨?_, ?_⟩, fun summarizes => ⟨?_, ?_, ?_⟩⟩
  · exact ⟨_, replied _, reflects.reached_iff n⟩
  · rw [replied, step, reflects.reportable_eq]
  · simp only [outcome, run_append, run, step]
  · rw [replied, step, reflects.summary_eq]
  · simp only [outcome, run_append, run, step]
  · have alone := (start_reflects limit).run (before.filter fun o => o.recorded?.isSome)
    rw [List.nil_append] at alone
    rw [alone.summary_eq, recorded_filter]

/-- A total that falls below the limit and comes back does not reach it a second time. -/
example : ((start 2).run [.markReported 2, .markReported (-1), .markReported 1]).2 =
    [.reached true, .reached false, .reached false] := rfl

end LintRun.Tally
