import LintRun.Configuration
import LintRun.Linting

/-!
# Stages from options

The linting stage that options describe: configurations are looked up in a file tree, and what was
found is remembered for the whole run, beside the state of the engine.
-/
namespace LintRun

open LintRun.Configuration (Lookup Memory)

variable [Wording] {σ : Type}

def LintOptions.lookup (o : LintOptions) : Lookup := ⟨o.configFilename, o.configuration⟩

/-- A lookup as the resolver of a stage; it takes no time worth counting. -/
def Configuration.Lookup.resolver (k : Lookup) (tree : FileTree) (cwd : Location) :
    Resolver (Memory × σ) :=
  fun p (m, s) =>
    let (result, m) := k.resolve tree cwd p m
    (⟨result, 0⟩, (m, s))

def Engine.beside {μ : Type} : Engine σ → Engine (μ × σ)
  | .callable lint => .callable fun r (m, s) =>
    let (c, s) := lint r s
    (c, (m, s))
  | .uncallable v => .uncallable v

def Linter.ofOptions (o : LintOptions) (resolver : Resolver σ) (engine : Engine σ)
    (handler : Option (ErrorHandler σ)) : Linter σ :=
  ⟨resolver, engine, o.rulesDirectory, o.limit, handler⟩

end LintRun
