import LintRun.Proofs.Flow.Stages

/-!
# The requests of a run

A run asks the engine about its own records only, and each time with the rules directory of its
linting stage.
-/
namespace LintRun

/-- A line on the log or a call of the reporter is no request. -/
theorem Event.IsReportOn.ne_request {handed : Option Record} {q : Request}
    (about : (Event.request q).IsReportOn handed) : False := by
  cases about

namespace Flow

variable {σ : Type}

/-- Each request of a run is made for one of its records. -/
theorem exists_record_of_request [Wording] (f : Flow σ) (s : σ) (t : Tally) (records : List Record)
    (q : Request) (made : .request q ∈ (f.run s t records).events) :
    ∃ r ∈ records, ∃ configuration text, r.text = .ok text ∧
      q = f.linter.requestFor r configuration text := by
  induction records generalizing s t with
  | nil => exact (Judge.verdict_isReportOn f.judge.options t _ made).ne_request.elim
  | cons r rest ih =>
    have now (visit : .request q ∈ (f.linter.handle r s).events) :
        ∃ r' ∈ r :: rest, ∃ configuration text, r'.text = .ok text ∧
          q = f.linter.requestFor r' configuration text :=
      ⟨r, List.mem_cons_self, (f.linter.handle_visits r s).request_eq q visit⟩
    have later (s' : σ) (t' : Tally) (more : .request q ∈ (f.run s' t' rest).events) :
        ∃ r' ∈ r :: rest, ∃ configuration text, r'.text = .ok text ∧
          q = f.linter.requestFor r' configuration text := by
      obtain ⟨r', among, request⟩ := ih s' t' more
      exact ⟨r', List.mem_cons_of_mem r among, request⟩
    rw [run] at made
    dsimp only at made
    split at made
    · exact now made
    · rcases List.mem_append.mp made with visit | more
      · exact now visit
      · exact later _ _ more
    · next linted _ =>
      have silent (ruling : .request q ∈
          (f.judge.handle t (f.linter.handle r s).state linted).events) : False :=
        (f.judge.handle_isReportOn t _ linted _ ruling).ne_request
      split at made
      · rcases List.mem_append.mp made with visit | ruling
        · exact now visit
        · exact (silent ruling).elim
      · rcases List.mem_append.mp made with early | late
        · rcases List.mem_append.mp early with visit | ruling
          · exact now visit
          · exact (silent ruling).elim
        · rcases List.mem_cons.mp late with handed | more
          · cases handed
          · exact later _ _ more

end Flow

end LintRun
