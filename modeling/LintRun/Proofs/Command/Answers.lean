import LintRun.Linting.OfOptions
import LintRun.Proofs.Command.Programs
import LintRun.Proofs.Command.Scratch
import LintRun.Proofs.Decoded

/-!
# What a command answers

A program that has come to its end is judged by what it printed and by nothing else: its text is the
answer if it lists findings, and else there is an error that tells the status. The status counts
only if nothing was printed. So every answer of a command decodes, and the only errors are those of
the engine side.
-/
namespace LintRun.Command

/-- A text that lists findings; without any characters it lists none. -/
def Usable (text : String) : Prop := text ≠ "" ∧ ∃ fs, Payload.decodeText text = .ok fs

namespace Machine

section Judge

variable (relative : String) (f : Finished)

/-- What a program is taken to have printed, said in words of what it printed. -/
theorem printed_eq :
    printed f =
      let text := Text.trim (Text.Utf8.decodeDropping f.output)
      if text = "" ∧ f.status = 0 then "[]" else text := by
  simp [printed]

theorem judge_of_usable (usable : Usable (printed f)) :
    judge relative f = .ok (.ofText (printed f)) := by
  obtain ⟨filled, fs, decoded⟩ := usable
  simp only [judge, if_neg filled, decoded]

theorem judge_of_not_usable (unusable : ¬ Usable (printed f)) :
    ∃ details, judge relative f = .error (.engine (.noPayload f.status relative
      (Text.trim (Text.Utf8.decodeDropping f.complaint)) details)) := by
  by_cases empty : printed f = ""
  · exact ⟨none, by simp only [judge, if_pos empty]⟩
  · cases decoded : Payload.decodeText (printed f) with
    | ok fs => exact absurd ⟨empty, fs, decoded⟩ unusable
    | error ds => exact ⟨some ds, by simp only [judge, if_neg empty, decoded]⟩

/-- A payload is taken only if it decodes. -/
theorem exists_decode_of_judge {p : Payload} (taken : judge relative f = .ok p) :
    ∃ fs, p.decode = .ok fs := by
  by_cases usable : Usable (printed f)
  · rw [judge_of_usable relative f usable] at taken
    obtain rfl := Except.ok.inj taken
    rw [Payload.decode_ofText]
    exact usable.2
  · obtain ⟨details, refused⟩ := judge_of_not_usable relative f usable
    rw [refused] at taken
    cases taken

end Judge

variable {σ : Type} {m : Machine σ} {depth : Nat} {template : List String} {q : Request}
  {s last : σ} {f : Finished} {seconds : Float}

/-- The command for a request in a state comes to its end after so many seconds: its program is
started in the filled scratch directory, and ends. -/
def Completes (m : Machine σ) (depth : Nat) (template : List String) (q : Request) (s : σ)
    (f : Finished) (seconds : Float) (last : σ) : Prop :=
  ∃ t, m.fill depth q = .ok t ∧ m.start t (m.words template q) s = .ok (⟨.ok f, seconds⟩, last)

theorem lint_of_completes (completes : m.Completes depth template q s f seconds last) :
    m.lint depth template q s = (⟨(judge q.relative f).map .payload, seconds⟩, last) := by
  obtain ⟨t, filled, started⟩ := completes
  unfold lint
  rw [filled]
  dsimp only
  rw [started]
  dsimp only
  rw [Except.bind]

/-- A command either answers with a payload that its program was judged by, or ends with an error
of its start, or of its program, or of the judgement. -/
theorem lint_cases (m : Machine σ) (depth : Nat) (template : List String) (q : Request) (s : σ) :
    (∃ e, (m.lint depth template q s).1.ending = .error e) ∨
      ∃ f p, judge q.relative f = .ok p ∧
        (m.lint depth template q s).1.ending = .ok (.payload p) := by
  unfold lint
  split
  · next e _ => exact .inl ⟨e, rfl⟩
  · split
    · next p _ => exact .inl ⟨p.error, rfl⟩
    · next c last _ =>
      cases ended : c.ending with
      | error e => exact .inl ⟨e, rfl⟩
      | ok f =>
        cases taken : judge q.relative f with
        | error e => exact .inl ⟨e, by simp [Except.bind, taken, Except.map]⟩
        | ok p => exact .inr ⟨f, p, taken, by simp [Except.bind, taken, Except.map]⟩

/-- Every answer of a command is a payload that decodes. -/
theorem exists_decode_of_lint {a : Answer}
    (answered : (m.lint depth template q s).1.ending = .ok a) :
    ∃ p fs, a = .payload p ∧ p.decode = .ok fs := by
  rcases m.lint_cases depth template q s with ⟨e, failed⟩ | ⟨f, p, taken, ended⟩
  · rw [failed] at answered
    cases answered
  · rw [ended] at answered
    cases answered
    obtain ⟨fs, decoded⟩ := exists_decode_of_judge q.relative f taken
    exact ⟨p, fs, rfl, decoded⟩

section Engine

variable {command : Option (List String)}

/-- Every payload that a command engine gives decodes. -/
theorem exists_decode_of_run {p : Payload}
    (given : ((m.engine depth command).run q s).1.ending = .ok p) :
    ∃ fs, p.decode = .ok fs := by
  simp only [engine, Engine.run, Call.toPayload] at given
  split at given
  · next a answered =>
    obtain ⟨p', fs, rfl, decoded⟩ := exists_decode_of_lint answered
    cases given
    exact ⟨fs, decoded⟩
  · cases given

/-- A command engine fails with errors of engines only, unless it is cancelled. -/
theorem error_of_run {e : Error}
    (failed : ((m.engine depth command).run q s).1.ending = .error e) :
    (∃ p, e = .engine p) ∨ ∃ words, e = .cancelled words := by
  simp only [engine, Engine.run, Call.toPayload] at failed
  split at failed
  · next a answered =>
    obtain ⟨p, _, rfl, _⟩ := exists_decode_of_lint answered
    cases failed
  · next cause _ =>
    cases failed
    cases cause with
    | cancelled words => exact .inr ⟨words, rfl⟩
    | _ => exact .inl ⟨_, rfl⟩

/-- What a command engine gives for a program that has come to its end. -/
theorem run_of_completes
    (completes : m.Completes depth (templateOf command) q s f seconds last) :
    (m.engine depth command).run q s = (⟨judge q.relative f, seconds⟩, last) := by
  simp only [engine, Engine.run, Call.toPayload, lint_of_completes completes]
  by_cases usable : Usable (printed f)
  · rw [judge_of_usable _ _ usable]
    rfl
  · obtain ⟨details, refused⟩ := judge_of_not_usable q.relative f usable
    rw [refused]
    rfl

end Engine

section Beside

variable {μ : Type}

def runBeside (run : Invocation → σ → Call Finished × σ) :
    Invocation → μ × σ → Call Finished × (μ × σ) :=
  fun i (x, s) => ((run i s).1, (x, (run i s).2))

/-- A machine whose programs leave what is remembered beside their state alone. -/
def beside (m : Machine σ) : Machine (μ × σ) :=
  ⟨m.space, m.scratch, fun l => (m.programs l).map runBeside⟩

theorem programAt_beside (m : Machine σ) (t : FileTree) (text : String) :
    (m.beside : Machine (μ × σ)).programAt t text = (m.programAt t text).map runBeside := by
  have scratch : (m.beside : Machine (μ × σ)).scratch = m.scratch := rfl
  unfold programAt
  rw [scratch]
  rcases t.walk m.scratch text with e | ⟨l, e⟩
  · rfl
  · cases e with
    | file b executable =>
      cases executable with
      | true =>
        cases run : m.programs l with
        | none => simp [beside, run, Except.map]
        | some p => simp [beside, run, Except.map]
      | false => rfl
    | directory => rfl
    | link target => rfl

theorem programAmong_beside (m : Machine σ) (t : FileTree) (texts : List String) :
    ∀ told, (m.beside : Machine (μ × σ)).programAmong t told texts =
      (m.programAmong t told texts).map runBeside := by
  induction texts with
  | nil => exact fun _ => rfl
  | cons text rest ih =>
    intro told
    simp only [programAmong, programAt_beside]
    cases m.programAt t text with
    | ok run => rfl
    | error e => exact ih _

theorem program_beside (m : Machine σ) (t : FileTree) (text : String) :
    (m.beside : Machine (μ × σ)).program t text = (m.program t text).map runBeside := by
  have texts : (m.beside : Machine (μ × σ)).attempts text = m.attempts text := rfl
  rw [program, texts, programAmong_beside, program]
  cases m.programAmong t .noEntry (m.attempts text) <;> rfl

theorem start_beside (m : Machine σ) (t : FileTree) (words : List String) (x : μ) (s : σ) :
    m.beside.start t words (x, s) = (m.start t words s).map fun (c, s) => (c, (x, s)) := by
  have space : (m.beside : Machine (μ × σ)).space = m.space := rfl
  simp only [start, space, bind, Except.bind]
  cases (SearchSpace.locate { m.space with tree := t } words).mapError StartProblem.search with
  | error p => rfl
  | ok located =>
    dsimp only
    split
    · rfl
    · cases located with
      | nil => rfl
      | cons text arguments =>
        simp only [program_beside]
        cases m.program t text <;> rfl

theorem lint_beside (m : Machine σ) (depth : Nat) (template : List String) (q : Request) (x : μ)
    (s : σ) :
    m.beside.lint depth template q (x, s) =
      ((m.lint depth template q s).1, (x, (m.lint depth template q s).2)) := by
  have filled : (m.beside : Machine (μ × σ)).fill depth q = m.fill depth q := rfl
  have words : (m.beside : Machine (μ × σ)).words template q = m.words template q := rfl
  unfold lint
  rw [filled, words]
  cases m.fill depth q with
  | error e => rfl
  | ok t =>
    dsimp only
    rw [start_beside]
    cases m.start t (m.words template q) s <;> rfl

/-- A command engine that leaves what is remembered alone is a command engine. -/
theorem engine_beside (m : Machine σ) (depth : Nat) (command : Option (List String)) :
    (m.engine depth command).beside = (m.beside : Machine (μ × σ)).engine depth command := by
  unfold engine Engine.beside
  refine congrArg Engine.callable ?_
  funext q ⟨x, s⟩
  rw [lint_beside]

end Beside

section Sample

open LintRun.FileTree

/-- A machine with a program that prints the same whatever it is asked. -/
def printing (output : ByteArray) : Machine Unit :=
  ⟨⟨⟨[(["p"], .file ByteArray.empty true)]⟩, [], ""⟩, ["s"],
    fun _ => some fun _ s => (⟨.ok ⟨0, output, ByteArray.empty⟩, 0⟩, s)⟩

section Printing

variable (output : ByteArray)

theorem scratchFile_printing :
    (printing output).scratchFile configFilename = ⟨.root, ["s", configFilename]⟩ :=
  show Path.join ⟨.root, ["s"]⟩ (Path.ofString configFilename) = _ by decide

theorem toString_program : Path.toString ⟨.root, ["p"]⟩ = "/p" := by decide

/-- The scratch directory of the machine is filled beside its program. -/
theorem exists_fill_printing :
    ∃ t, (printing output).fill Depth.writtenInCheck (requestOf "a.ts") = .ok t ∧
      t.walk ["s"] "/p" = .ok (["p"], .file ByteArray.empty true) := by
  have free {t : FileTree} {l : Location} (absent : t.entry? l = none) :
      ∀ e, t.entry? l = some e → ∃ b x, e = .file b x := by
    rw [absent]
    nofun
  have usable : IsFileName "a.ts" :=
    ⟨by decide, by decide, by decide, by decide, by decide⟩
  have copyPath : (printing output).scratchFile (scratchPath "a.ts") = ⟨.root, ["s", "a.ts"]⟩ :=
    show Path.join ⟨.root, ["s"]⟩ (Path.ofString (scratchPath "a.ts")) = _ by decide +kernel
  obtain ⟨x, copied⟩ := writeText_bare (t := freshDirectory (printing output).space.tree ["s"])
    "1" usable rfl rfl (free rfl)
  obtain ⟨y, configured⟩ := writeText_bare (t := (freshDirectory (printing output).space.tree
    ["s"]).put ["s", "a.ts"] (.file (Text.Utf8.encode "1") x)) "\x7b\x7d" configFilename_isFileName
    rfl rfl (free rfl)
  rw [← copyPath] at copied
  rw [← scratchFile_printing output] at configured
  refine ⟨_, fill_eq_ok.mpr ⟨_, copied, _, rfl, configured⟩, ?_⟩
  rw [← toString_program]
  exact walk_of_leads (by decide) (by decide) (.file (by decide) rfl)
    (Nat.zero_le linkLimit)

/-- The program of the machine is started where the command says. -/
theorem start_printing {t : FileTree}
    (walked : t.walk ["s"] "/p" = .ok (["p"], .file ByteArray.empty true)) :
    (printing output).start t ["/p"] () = .ok (⟨.ok ⟨0, output, ByteArray.empty⟩, 0⟩, ()) := by
  have spelled : Path.ofString "/p" = ⟨.root, ["p"]⟩ := by decide
  have located (space : SearchSpace) : space.locate ["/p"] = .ok ["/p"] := by
    simp [SearchSpace.locate, spelled, Path.isAbsolute, toString_program]
  have noNul : (["/p"].any fun w => w.toList.contains '\x00') = false := by decide
  have scratch : (printing output).scratch = ["s"] := rfl
  have found : (printing output).program t "/p" =
      .ok fun _ s => (⟨.ok ⟨0, output, ByteArray.empty⟩, 0⟩, s) := by
    rw [program_of_slash _ _ (by decide), programAt, scratch, walked]
    rfl
  rw [start, located]
  simp only [mapError_ok, bind, Except.bind, noNul, Bool.false_eq_true, if_false, found]
  rfl

/-- The command of the machine comes to its end. -/
theorem completes_printing :
    (printing output).Completes Depth.writtenInCheck ["/p"] (requestOf "a.ts") ()
      ⟨0, output, ByteArray.empty⟩ 0 () := by
  obtain ⟨t, filled, walked⟩ := exists_fill_printing output
  have words : (printing output).words ["/p"] (requestOf "a.ts") = ["/p"] := by
    rw [Machine.words, scratchFile_printing]
    decide
  exact ⟨t, filled, by rw [words, start_printing output walked]⟩

end Printing

end Sample

end Machine

end LintRun.Command
