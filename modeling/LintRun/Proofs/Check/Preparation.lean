import LintRun.Check
import LintRun.Proofs.Outcomes
import LintRun.Proofs.Settings

/-!
# What keeps a check from its first record

A check is prepared in five steps: its root, its settings, its files, its time limit, its reporter.
The first step that fails gives the error (`prepare_eq_error`). An error about the root, a file or
the limit is one of the surroundings; an unknown reporter, and a problem of the configuration, are
the program's own. The records of a prepared check hold the bytes of the files, and were never
linted.
-/
namespace LintRun

theorem FileTree.isOwn_of_resolve {t : FileTree} {cwd : Location} {p : Path} {e : Error}
    (failed : t.resolve cwd p = .error e) : e.isOwn = false := by
  unfold resolve at failed
  split at failed
  · cases failed
    rfl
  · split at failed
    · cases failed
    · dsimp only at failed
      split at failed
      · cases failed
        rfl
      · cases failed

theorem Record.isOwn_of_ofFile {tree : FileTree} {cwd : Location} {p : Path} {base : Option Path}
    {e : Error} (failed : ofFile tree cwd p base = .error e) : e.isOwn = false := by
  simp only [ofFile, bind_eq_error, mapError_eq_error] at failed
  rcases failed with unresolved | ⟨file, -, unresolved | ⟨_, -, ⟨problem, -, rfl⟩ | ⟨_, -, done⟩⟩⟩
  · exact FileTree.isOwn_of_resolve unresolved
  · exact FileTree.isOwn_of_resolve unresolved
  · cases problem <;> rfl
  · cases done

namespace Settings

variable [Wording] {st : Settings}

def limitError (t : Float) : Error :=
  .invalid (Wording.options (.table [("timeout", .float t)])) [⟨.notPositive, [.key "timeout"]⟩]

theorem checkLimit_of_some {t : Float} (limited : st.limit = some t) :
    st.checkLimit = if 0 < t then .ok () else .error (limitError t) := by
  simp only [checkLimit, limited, Schema.positiveFloat, Schema.float]
  by_cases positive : 0 < t
  · simp only [positive, if_true]
    rfl
  · simp only [positive, if_false]
    rfl

theorem checkLimit_eq_ok : st.checkLimit = .ok () ↔ ∀ t, st.limit = some t → 0 < t := by
  cases limited : st.limit with
  | none => simp [checkLimit, limited]
  | some t => simp [checkLimit_of_some limited]

theorem checkLimit_eq_error {e : Error} :
    st.checkLimit = .error e ↔ ∃ t, st.limit = some t ∧ ¬ 0 < t ∧ e = limitError t := by
  cases limited : st.limit with
  | none => simp [checkLimit, limited]
  | some t =>
    rw [checkLimit_of_some limited]
    by_cases positive : 0 < t <;> simp [positive, eq_comm]

end Settings

namespace Check

open LintRun.Command (Machine)
open LintRun.CommandLine (Arguments)

section Records

variable {tree : FileTree} {cwd : Location} {root : Path}

theorem isOwn_of_records {files : List Path} {e : Error}
    (failed : records tree cwd root files = .error e) : e.isOwn = false := by
  induction files with
  | nil => cases failed
  | cons p rest ih =>
    simp only [records, List.mapM_cons, bind_eq_error] at failed
    rcases failed with unread | ⟨_, -, later | ⟨_, -, done⟩⟩
    · exact Record.isOwn_of_ofFile unread
    · exact ih later
    · cases done

/-- The records of a check hold bytes, and were not linted before. -/
theorem bytes_of_records {files : List Path} {rs : List Record}
    (read : records tree cwd root files = .ok rs) :
    ∀ r ∈ rs, r.lint = none ∧ ∃ b, r.contents = .bytes b := by
  induction files generalizing rs with
  | nil =>
    cases read
    simp
  | cons p rest ih =>
    simp only [records, List.mapM_cons, bind_eq_ok, pure, Except.pure, Except.ok.injEq] at read
    obtain ⟨first, held, others, later, rfl⟩ := read
    simp only [Record.ofFile, bind_eq_ok, pure, Except.pure, Except.ok.injEq] at held
    obtain ⟨file, -, base, -, b, -, rfl⟩ := held
    intro r member
    rcases List.mem_cons.mp member with rfl | inRest
    · exact ⟨rfl, b, rfl⟩
    · exact ih later r inRest

end Records

variable [Wording] {σ : Type} {m : Machine σ} {a : Arguments} {root : Path} {st : Settings}
  {e : Error}

/-- Settings are there once they are loaded and the command is cut into words. -/
theorem settings_eq_error :
    settings m a root = .error e ↔
      Settings.load Depth.project m.space.tree m.space.cwd root = .error e ∨
        ∃ s text p, Settings.load Depth.project m.space.tree m.space.cwd root = .ok s ∧
          a.command = some text ∧ CommandLine.words text = .error p ∧ e = p.error := by
  have commandWords_eq_error : a.commandWords = .error e ↔
      ∃ text p, a.command = some text ∧ CommandLine.words text = .error p ∧ e = p.error := by
    unfold Arguments.commandWords
    split
    · next untold => simp [untold]
    · next empty =>
      have none : CommandLine.words "" = .ok [] := rfl
      simp [empty, none]
    · next text _ told =>
      cases cut : CommandLine.words text with
      | ok ws => simp [told, cut, mapError_ok, Except.map]
      | error p => simp [told, cut, mapError_error, Except.map, eq_comm]
  simp only [settings, bind_eq_error, commandWords_eq_error]
  constructor
  · rintro (failed | ⟨s, loaded, ⟨text, p, told, uncut, rfl⟩ | ⟨_, -, done⟩⟩)
    · exact .inl failed
    · exact .inr ⟨s, text, p, loaded, told, uncut, rfl⟩
    · cases done
  · rintro (failed | ⟨s, text, p, loaded, told, uncut, rfl⟩)
    · exact .inl failed
    · exact .inr ⟨s, loaded, .inl ⟨text, p, told, uncut, rfl⟩⟩

omit [Wording] in
/-- The choice of a reporter by name. -/
theorem resolve_named (name : String) :
    (ReporterChoice.named name : ReporterChoice σ).resolve =
      match ReporterName.ofText? name with
      | some known => .ok (some known.reporter)
      | none =>
        .error (.reporter (.unknownName name (ReporterName.all.map ReporterName.text))) := rfl

/-- A prepared check. -/
theorem prepare_eq_ok {f : Flow (Configuration.Memory × σ)} {rs : List Record} :
    prepare m a = .ok (f, rs) ↔
      ∃ root st name, m.space.tree.resolve m.space.cwd (a.root.getD .here) = .ok root ∧
        settings m a root = .ok st ∧
        records m.space.tree m.space.cwd root a.files = .ok rs ∧ st.checkLimit = .ok () ∧
        ReporterName.ofText? st.reporter = some name ∧ f = flow m st (some name.reporter) := by
  have chosen (st : Settings) (reporter : Option (Reporter (Configuration.Memory × σ))) :
      (ReporterChoice.named st.reporter).resolve = .ok reporter ↔
        ∃ name, ReporterName.ofText? st.reporter = some name ∧ reporter = some name.reporter := by
    rw [resolve_named]
    cases ReporterName.ofText? st.reporter with
    | none => simp
    | some name => simp [eq_comm]
  simp only [prepare, bind_eq_ok, pure, Except.pure, Except.ok.injEq, Prod.mk.injEq, chosen]
  constructor
  · rintro ⟨root, resolved, st, settled, _, read, _, limited, _, ⟨name, known, rfl⟩, rfl, rfl⟩
    exact ⟨root, st, name, resolved, settled, read, limited, known, rfl⟩
  · rintro ⟨root, st, name, resolved, settled, read, limited, known, rfl⟩
    exact ⟨root, resolved, st, settled, rs, read, (), limited, _, ⟨name, known, rfl⟩, rfl, rfl⟩

/-- The first step that fails keeps a check from being prepared. -/
theorem prepare_eq_error :
    prepare m a = .error e ↔
      m.space.tree.resolve m.space.cwd (a.root.getD .here) = .error e ∨
        ∃ root, m.space.tree.resolve m.space.cwd (a.root.getD .here) = .ok root ∧
          (settings m a root = .error e ∨
            ∃ st, settings m a root = .ok st ∧
              (records m.space.tree m.space.cwd root a.files = .error e ∨
                ∃ rs, records m.space.tree m.space.cwd root a.files = .ok rs ∧
                  (st.checkLimit = .error e ∨
                    ∃ passed, st.checkLimit = .ok passed ∧
                      ReporterName.ofText? st.reporter = none ∧
                      e = .reporter (.unknownName st.reporter
                        (ReporterName.all.map ReporterName.text))))) := by
  have unchosen (st : Settings) :
      ((ReporterChoice.named st.reporter :
            ReporterChoice (Configuration.Memory × σ)).resolve = .error e ∨
        ∃ reporter : Option (Reporter (Configuration.Memory × σ)),
          (ReporterChoice.named st.reporter).resolve = .ok reporter ∧ False) ↔
        ReporterName.ofText? st.reporter = none ∧
          e = .reporter (.unknownName st.reporter (ReporterName.all.map ReporterName.text)) := by
    rw [resolve_named]
    cases ReporterName.ofText? st.reporter with
    | none => simp [eq_comm]
    | some name => simp
  simp only [prepare, bind_eq_error, pure, Except.pure, reduceCtorEq, unchosen]

end Check

end LintRun
