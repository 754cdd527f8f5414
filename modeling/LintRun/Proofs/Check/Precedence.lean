import LintRun.Proofs.Check.Status
import LintRun.Proofs.Settings.Said

/-!
# The options in effect

A check runs with what its command line tells of each option, whoever reads it; else with what the
section of the project says of it; else with the default (`options_in_effect`). Only the command of
the linter does not always follow this: a text of blanks tells none, but the section's command does
not count beside it, and the default one runs.
-/
namespace LintRun

open LintRun.Command (Machine)
open LintRun.CommandLine (Arguments Item Reader valueOf)
open LintRun.Configuration (Memory)

section InEffect

variable {α : Type}

/-- The value of an option that a command line may tell and a section may say. -/
inductive InEffect (told said : Option α) (absent : α) : α → Prop where
  | told (x : α) (carried : told = some x) : InEffect told said absent x
  | said (x : α) (untold : told = none) (stands : said = some x) : InEffect told said absent x
  | absent (untold : told = none) (unsaid : said = none) : InEffect told said absent absent

variable {told said : Option α} {absent x : α}

/-- Exactly one value is in effect. -/
theorem inEffect_iff : InEffect told said absent x ↔ x = told.getD (said.getD absent) := by
  constructor
  · rintro (⟨_, rfl⟩ | ⟨_, rfl, rfl⟩ | ⟨rfl, rfl⟩) <;> rfl
  · rintro rfl
    cases told with
    | some x => exact .told x rfl
    | none =>
      cases said with
      | some x => exact .said x rfl rfl
      | none => exact .absent rfl rfl

/-- An option that may be left out altogether. -/
theorem inEffect_or (told said : Option α) :
    InEffect (told.map some) (said.map some) none (told.or said) := by
  rw [inEffect_iff]
  cases told with
  | some _ => rfl
  | none => cases said <;> rfl

/-- A switch that a command line can only turn on. -/
theorem inEffect_switch (on : Bool) (said : Option Bool) :
    InEffect (if on then some true else none) said false (on || said.getD false) := by
  rw [inEffect_iff]
  cases on <;> rfl

end InEffect

variable {σ : Type}

/-- The options that the stages of a check run with. -/
structure Choices where
  reporter : String
  reportLimit : Int
  failsRun : Bool
  summarizes : Bool
  configuration : Option Path
  configFilename : String
  rulesDirectory : Option Path
  limit : Option Float
  /-- The words of the linter command, with the tokens in them. -/
  template : List String

/-- The two stages of a check with these options, and the reporter that they name. -/
def Choices.flow [Wording] (m : Machine σ) (c : Choices) (reporter : Reporter (Memory × σ)) :
    Flow (Memory × σ) where
  linter :=
    { resolver := Configuration.Lookup.resolver ⟨c.configFilename, c.configuration.map .file⟩
        m.space.tree m.space.cwd
      engine := (Engine.callable (m.lint Depth.writtenInCheck c.template)).beside
      rulesDirectory := c.rulesDirectory
      limit := c.limit
      handler := none }
  judge := ⟨some reporter, ⟨c.failsRun, c.reportLimit, c.summarizes⟩⟩

def Settings.choices (s : Settings) : Choices where
  reporter := s.reporter
  reportLimit := s.reportLimit
  failsRun := s.failsRun
  summarizes := s.summarizes
  configuration := s.configuration
  configFilename := s.configFilename
  rulesDirectory := s.rulesDirectory
  limit := s.limit
  template := Command.templateOf s.command

namespace Check

open Schema Settings

theorem flow_eq [Wording] (m : Machine σ) (st : Settings) (reporter : Reporter (Memory × σ)) :
    flow m st (some reporter) = st.choices.flow m reporter := rfl

/-- Each option but the command is what the items tell, as it is read, or what the section says,
with its paths seen from the root, or the default. -/
structure Follows (reader : Reader) (is : List Item) (t : Table) (root : Path) (c : Choices) :
    Prop where
  reporter : InEffect (valueOf .reporter is) (said text "reporter" t) "prose" c.reporter
  reportLimit : InEffect ((valueOf .reportLimit is).bind reader.int?)
    (said int "report_limit" t) 0 c.reportLimit
  failsRun : InEffect (CommandLine.failsRunOf is) (said bool "emit_error" t) true c.failsRun
  summarizes : InEffect (if is.contains (.switch .summarizes) then some true else none)
    (said bool "summarize_failure_output" t) false c.summarizes
  configuration : InEffect (((valueOf .configuration is).bind reader.path?).map some)
    (((said pathOfValue "configuration" t).map root.join).map some) none c.configuration
  configFilename : InEffect (valueOf .configFilename is) (said text "config_filename" t)
    "tslint.json" c.configFilename
  rulesDirectory : InEffect (((valueOf .rulesDirectory is).bind reader.path?).map some)
    (((said pathOfValue "rules_directory" t).map root.join).map some) none c.rulesDirectory
  limit : InEffect (((valueOf .limit is).bind reader.limit?).map some)
    ((said positiveFloat "timeout" t).map some) none c.limit

/-- The command that items tell: the words of its text, if there are any. -/
def toldCommand (is : List Item) : Option (List String) :=
  ((valueOf .command is).bind fun text => (CommandLine.words text).toOption).filter (· ≠ [])

/-- The command that a section says, if it has words. -/
def saidCommand (t : Table) : Option (List String) :=
  (said texts "command" t).filter (· ≠ [])

/-- Items give a text for the command, with nothing but blanks in it. -/
def TellsBlanks (is : List Item) : Prop :=
  ∃ text, valueOf .command is = some text ∧ text ≠ "" ∧
    ∀ c ∈ text.toList, CommandLine.isGap c = true

variable {reader : Reader} {is : List Item} {t : Table} {root : Path}
  {command : Option (List String)}

/-- Settings of a section with what items tell in their place. -/
theorem follows_override (command : Option (List String)) :
    Follows reader is t root
      ((((ofSaid t).within root).override (Arguments.ofReadable reader is) command).choices) where
  reporter := inEffect_iff.mpr rfl
  reportLimit := inEffect_iff.mpr rfl
  failsRun := inEffect_iff.mpr rfl
  summarizes := inEffect_switch _ _
  configuration := inEffect_or _ _
  configFilename := inEffect_iff.mpr rfl
  rulesDirectory := inEffect_or _ _
  limit := inEffect_or _ _

theorem templateOf_eq (words : Option (List String)) :
    Command.templateOf words = (words.filter (· ≠ [])).getD Command.defaultTemplate := by
  match words with
  | none | some [] => rfl
  | some (_ :: _) => rfl

/-- What goes before the command of the section: what is told, or no words beside blanks. -/
theorem commandWords_cases (cut : (Arguments.ofReadable reader is).commandWords = .ok command) :
    (TellsBlanks is ∧ toldCommand is = none ∧ command = some []) ∨
      (¬ TellsBlanks is ∧ command = toldCommand is) := by
  have field : (Arguments.ofReadable reader is).command = valueOf .command is := rfl
  unfold Arguments.commandWords at cut
  rw [field] at cut
  unfold TellsBlanks toldCommand
  split at cut
  · next untold =>
    cases cut
    exact .inr (by simp [untold])
  · next empty =>
    -- An empty text is not cut at all, so no words of it stand in the way of the section.
    have noWords : CommandLine.words "" = .ok [] := rfl
    cases cut
    exact .inr (by simp [empty, noWords, Except.toOption, Option.filter_some])
  · next text filled given =>
    obtain ⟨ws, split, rfl⟩ := map_eq_ok.mp cut
    rw [mapError_eq_ok] at split
    have blank : ws = [] ↔ ∀ c ∈ text.toList, CommandLine.isGap c = true := by
      rw [← CommandLine.words_eq_nil_iff, split, Except.ok.injEq]
    by_cases none : ws = []
    · subst none
      exact .inl ⟨⟨text, given, filled, blank.mp rfl⟩, by simp [given, split, Except.toOption], rfl⟩
    · refine .inr ⟨?_, by simp [given, split, Except.toOption, Option.filter_some, none]⟩
      rintro ⟨other, same, -, blanks⟩
      obtain rfl : text = other := Option.some.inj (given.symm.trans same)
      exact none (blank.mpr blanks)

/-- What runs with the words that are told and those that a section says. -/
theorem inEffect_templateOf (is : List Item) (t : Table) :
    InEffect (toldCommand is) (saidCommand t) Command.defaultTemplate
      (Command.templateOf ((toldCommand is).or (said texts "command" t))) := by
  rw [inEffect_iff]
  cases told : toldCommand is with
  | none => exact templateOf_eq _
  | some ws =>
    have filled : ws ≠ [] := by
      simpa using (Option.filter_eq_some_iff.mp told).2
    simp [templateOf_eq, Option.filter_some, filled]

/-- The default command runs in place of blanks, and this is the command in effect only if the
section says no other one. -/
theorem inEffect_default_iff (untold : toldCommand is = none) :
    InEffect (toldCommand is) (saidCommand t) Command.defaultTemplate Command.defaultTemplate ↔
      ¬ ∃ ws, saidCommand t = some ws ∧ ws ≠ Command.defaultTemplate := by
  rw [inEffect_iff, untold]
  cases saidCommand t with
  | none => simp
  | some ws => simp [eq_comm]

variable {m : Machine σ} {a : Arguments}

theorem settings_eq_override [Wording] (told : a.commandWords = .ok command)
    (has : HasSection Depth.project m.space.tree m.space.cwd root t)
    (valid : (ofTable (plainKeys t)).isOk = true) :
    settings m a root = .ok (((ofSaid t).within root).override a command) := by
  simp only [settings, load_of_hasSection has valid, told]
  rfl

theorem exists_commandWords
    (cut : ∀ text, a.command = some text → (CommandLine.words text).isOk = true) :
    ∃ command, a.commandWords = .ok command := by
  unfold Arguments.commandWords
  split
  · exact ⟨none, rfl⟩
  · exact ⟨none, rfl⟩
  · next text _ given =>
    have parted := cut text given
    cases known : CommandLine.words text with
    | ok ws => exact ⟨some ws, rfl⟩
    | error p =>
      rw [known] at parted
      cases parted

/-- A command line that is understood, at a project with a valid section, has each option that the
stages run with told, or else said, or else at its default, whoever reads the command line. The
command of the linter is the exception: beside a text of blanks the default runs, which is right
unless the section says another command. With these options the records are linted and reported, if
their reporter is known. A text for the command that cannot be cut into words ends the check before,
and so does a time limit that is no positive number. -/
theorem options_in_effect [Wording] (reader : Reader) (m : Machine σ) (output : Output)
    (args : List String) (a : Arguments) (s : σ) (root : Path) (t : Table)
    (told : Arguments.ofList? reader args = some a)
    (resolved : m.space.tree.resolve m.space.cwd (a.root.getD .here) = .ok root)
    (has : HasSection Depth.project m.space.tree m.space.cwd root t)
    (valid : (ofTable (plainKeys t)).isOk = true) :
    let report := ofCommandLine reader m output args s
    (∀ text p, a.command = some text → CommandLine.words text = .error p →
        report.ending = .crashed p.error) ∧
      ((∀ text, a.command = some text → (CommandLine.words text).isOk = true) →
        ∃ rest is c, Arguments.afterName? args = some rest ∧
          CommandLine.items none rest = some is ∧ Follows reader is t root c ∧
          (TellsBlanks is → c.template = Command.defaultTemplate) ∧
          (InEffect (toldCommand is) (saidCommand t) Command.defaultTemplate c.template ↔
            ¬ (TellsBlanks is ∧ ∃ ws, saidCommand t = some ws ∧ ws ≠ Command.defaultTemplate)) ∧
          ∀ rs, records m.space.tree m.space.cwd root a.files = .ok rs →
            (∀ x, c.limit = some x → ¬ 0 < x →
              report.ending = .crashed (Settings.limitError x)) ∧
            ((∀ x, c.limit = some x → 0 < x) →
              (∀ name, ReporterName.ofText? c.reporter = some name →
                report =
                  perform (Console.ofOutput output a.showsDebug) (c.flow m name.reporter) rs s) ∧
              (ReporterName.ofText? c.reporter = none →
                report.ending = .stopped (.reporter
                  (.unknownName c.reporter (ReporterName.all.map ReporterName.text)))))) := by
  intro report
  have whole : report = run m output a s := by
    simp only [report, ofCommandLine, told]
  rw [whole]
  refine ⟨fun text p given uncut => ?_, fun cut => ?_⟩
  · have escapes : Escapes m a s p.error :=
      .command resolved (load_of_hasSection has valid) given uncut
    exact escapes.run_eq output
  obtain ⟨rest, is, named, split, items, -⟩ := Arguments.ofList?_eq_some.mp told
  obtain rfl := Arguments.eq_ofReadable items
  obtain ⟨command, words⟩ := exists_commandWords cut
  have settled := settings_eq_override words has valid
  refine ⟨rest, is, _, named, split, follows_override command, ?_, ?_, ?_⟩
  · intro blanks
    rcases commandWords_cases words with ⟨-, -, rfl⟩ | ⟨unblank, -⟩
    · rfl
    · exact absurd blanks unblank
  · rcases commandWords_cases words with ⟨blanks, untold, rfl⟩ | ⟨unblank, rfl⟩
    · refine (inEffect_default_iff untold).trans (not_congr ?_)
      exact (and_iff_right blanks).symm
    · exact iff_of_true (inEffect_templateOf is t) fun both => unblank both.1
  · intro rs read
    refine ⟨fun x limited refused => ?_, fun positive => ⟨fun name known => ?_, fun unknown => ?_⟩⟩
    · have escapes : Escapes m (Arguments.ofReadable reader is) s (Settings.limitError x) :=
        .options resolved settled read limited refused
      exact escapes.run_eq output
    · have prepared := prepare_eq_ok.mpr
        ⟨root, _, name, resolved, settled, read, checkLimit_eq_ok.mpr positive, known, rfl⟩
      simp only [run, prepared, flow_eq]
    · have stops : Stops m (Arguments.ofReadable reader is) s _ :=
        .reporter resolved settled read positive unknown
      exact (stops.run_eq output).1

section Sample

attribute [local instance] Wording.leftOut

/-- A machine with a file to lint, and a project file with this text. -/
def withText (text : String) : Machine Unit := withProject (Text.Utf8.encode text)

/-- The reader of its command lines. -/
def textReader (text : String) : Reader := projectReader (Text.Utf8.encode text)

theorem isSection_withText {text : String} {t : Table}
    (read : Toml.read Depth.project text = .ok [("tool", .table [("lintstream", .table t)])]) :
    IsSection Depth.project (withText text).space.tree (withText text).space.cwd ⟨.root, []⟩ t :=
  isSection_of_text (read_withProject _).2 read

/-- A section that limits reports, and keeps findings from failing the run. -/
def lenientSection : String := "[tool.lintstream]\nreport-limit = 5\nemit-error = false\n"

/-- A limit of zero on the command line goes before that of the section, whose other words count:
findings do not fail the run. -/
theorem options_in_effect_zero_limit :
    ∃ c : Choices, c.reporter = "prose" ∧ c.reportLimit = 0 ∧ c.failsRun = false ∧
      c.template = Command.defaultTemplate ∧
      ∀ rs, records (withText lenientSection).space.tree (withText lenientSection).space.cwd
          ⟨.root, []⟩ [⟨.relative, ["a.ts"]⟩] = .ok rs →
        ofCommandLine (textReader lenientSection) (withText lenientSection) .plain
            ["check", "--report-limit", "0", "a.ts"] () =
          perform (Console.ofOutput .plain false)
            (c.flow (withText lenientSection) ReporterName.prose.reporter) rs () := by
  have stands : IsSection Depth.project (withText lenientSection).space.tree
      (withText lenientSection).space.cwd ⟨.root, []⟩
      [("report-limit", .int 5), ("emit-error", .bool false)] := isSection_withText (by cbv)
  have items : CommandLine.items none ["--report-limit", "0", "a.ts"] =
      some [.value .reportLimit "0", .file "a.ts"] := by cbv
  have told : Arguments.ofItems? (textReader lenientSection)
      [.value .reportLimit "0", .file "a.ts"] =
        some { bareArguments with reportLimit := some 0 } := by cbv
  have valid : (ofTable (plainKeys [("report-limit", .int 5), ("emit-error", .bool false)])).isOk =
      true := by cbv
  obtain ⟨-, effect⟩ :=
    options_in_effect (textReader lenientSection) (withText lenientSection) .plain
      ["check", "--report-limit", "0", "a.ts"] _ () ⟨.root, []⟩ _
      (ofList?_of_items _ items told rfl)
      (resolve_withProject _) (.table stands) valid
  have cut (text : String) (given : none = some text) :
      (CommandLine.words text).isOk = true := by
    cases given
  obtain ⟨rest, is, c, named, split, follows, -, template, runs⟩ := effect cut
  cases named
  obtain rfl := Option.some.inj (items.symm.trans split)
  have reporter : c.reporter = "prose" := (inEffect_iff.mp follows.reporter).trans (by cbv)
  have limit : c.reportLimit = 0 := (inEffect_iff.mp follows.reportLimit).trans (by cbv)
  have fails : c.failsRun = false := (inEffect_iff.mp follows.failsRun).trans (by cbv)
  have unlimited : c.limit = none := (inEffect_iff.mp follows.limit).trans (by cbv)
  have unsaid : saidCommand [("report-limit", .int 5), ("emit-error", .bool false)] = none := by cbv
  have command : c.template = Command.defaultTemplate := by
    refine (inEffect_iff.mp (template.mpr ?_)).trans (by cbv)
    rintro ⟨-, ws, stands, -⟩
    cases unsaid.symm.trans stands
  exact ⟨c, reporter, limit, fails, command, fun rs read =>
    ((runs rs read).2 (by simp [unlimited])).1 .prose (by rw [reporter]; decide)⟩

def ownSection : String := "[tool.lintstream]\ncommand = [\"lint\"]\n"

/-- Blanks for the command tell none, and still the default one runs and not that of the section. -/
theorem blank_command_loses_section :
    ∃ a is t st, Arguments.ofList? (textReader ownSection) ["check", "--command", " ", "a.ts"] =
        some a ∧
      CommandLine.items none ["--command", " ", "a.ts"] = some is ∧
      IsSection Depth.project (withText ownSection).space.tree (withText ownSection).space.cwd
        ⟨.root, []⟩ t ∧
      toldCommand is = none ∧ saidCommand t = some ["lint"] ∧
      settings (withText ownSection) a ⟨.root, []⟩ = .ok st ∧
      (∀ f rs, prepare (withText ownSection) a = .ok (f, rs) →
        ∃ reporter, f = st.choices.flow (withText ownSection) reporter) ∧
      st.choices.template = Command.defaultTemplate ∧
      ¬ InEffect (toldCommand is) (saidCommand t) Command.defaultTemplate st.choices.template := by
  have stands : IsSection Depth.project (withText ownSection).space.tree
      (withText ownSection).space.cwd ⟨.root, []⟩ [("command", .list [.text "lint"])] :=
    isSection_withText (by cbv)
  have items : CommandLine.items none ["--command", " ", "a.ts"] =
      some [.value .command " ", .file "a.ts"] := by cbv
  have told : Arguments.ofItems? (textReader ownSection) [.value .command " ", .file "a.ts"] =
      some { bareArguments with command := some " " } := by cbv
  have valid : (ofTable (plainKeys [("command", .list [.text "lint"])])).isOk = true := by cbv
  have words : Arguments.commandWords { bareArguments with command := some " " } =
      .ok (some []) := by cbv
  have untold : toldCommand [.value .command " ", .file "a.ts"] = none := by cbv
  have own : saidCommand [("command", .list [.text "lint"])] = some ["lint"] := by cbv
  have settled := settings_eq_override words (.table stands) valid
  refine ⟨_, _, _, _, ofList?_of_items _ items told rfl, items, stands, untold, own, settled, ?_,
    rfl, ?_⟩
  · intro f rs prepared
    obtain ⟨_, st, name, resolved, again, -, -, -, rfl⟩ := prepare_eq_ok.mp prepared
    cases (resolve_withProject _).symm.trans resolved
    cases settled.symm.trans again
    exact ⟨_, flow_eq _ _ _⟩
  · rw [inEffect_iff, untold, own]
    show Command.defaultTemplate ≠ ["lint"]
    decide

end Sample

end Check

end LintRun
