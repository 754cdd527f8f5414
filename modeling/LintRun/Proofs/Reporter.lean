import LintRun.Proofs.Payload.RoundTrip
import LintRun.Reporter

/-!
# How built-in reporters end

A built-in reporter returns unless a finding holds a number with too many digits where it writes
it: the JSON reporter writes all numbers of a finding, the others write the line and the column that
the finding starts at, counted from one. It ends with the same error in any case
(`ReporterName.error_write`).
-/
namespace LintRun

theorem Finding.jsonLine_eq (fs : List Finding) :
    jsonLine fs =
      if fs.any isLong then .error (.excess .spelling)
      else .ok (Json.print .compact (Payload.listValue fs)) := by
  unfold jsonLine Json.encode?
  rw [← Payload.listValue, Payload.firstUnwritable?_listValue]
  cases fs.any isLong <;> rfl

/-- Lines that show the places of findings are written up to the first one that is too far off. -/
theorem Written.error_each (c : Channel) (line : Finding → Except Excess String)
    (shows : ∀ f, ∃ words, line f = f.showing words) (fs : List Finding) :
    (each c line fs).error = if fs.any Finding.isFarOff then some (.ofExcess .spelling) else none := by
  induction fs with
  | nil => rfl
  | cons f rest ih =>
    obtain ⟨words, shown⟩ := shows f
    rw [each, shown, Finding.showing, List.any_cons]
    cases far : f.isFarOff with
    | true => rfl
    | false => exact ih

namespace ReporterName

/-- Whether a built-in reporter can write findings. -/
def canWrite (name : ReporterName) (fs : List Finding) : Bool :=
  match name with
  | .json => !fs.any Finding.isLong
  | _ => !fs.any Finding.isFarOff

/-- A built-in reporter returns exactly if it can write the findings. -/
theorem error_write (name : ReporterName) (b : Batch) :
    (name.write b).error =
      if name.canWrite b.findings then none else some (.ofExcess .spelling) := by
  cases name with
  | json =>
    rw [write, Finding.jsonLine_eq, canWrite]
    cases b.findings.any Finding.isLong <;> rfl
  | _ =>
    refine (Written.error_each _ _ ?_ b.findings).trans ?_
    · exact fun f => ⟨_, rfl⟩
    · cases far : b.findings.any Finding.isFarOff <;> simp [canWrite, far]

/-- A built-in reporter that can write findings can write some of them. -/
theorem canWrite_of_subset (name : ReporterName) {fs gs : List Finding} (part : fs ⊆ gs)
    (whole : name.canWrite gs = true) : name.canWrite fs = true := by
  cases name with
  | _ =>
    simp only [canWrite, Bool.not_eq_true', List.any_eq_false] at whole ⊢
    exact fun f member => whole f (part member)

end ReporterName

end LintRun
