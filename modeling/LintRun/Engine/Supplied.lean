import LintRun.Engine

/-!
# Engines as they are supplied

What is supplied as an engine is called itself, unless it has an attribute `lint` that can be
called: then that is. A call gives back an answer, or something to wait for. Either way the call is
one operation of the engine (`Supplied.engine`).
-/
namespace LintRun

variable {σ : Type}

inductive Reply (σ : Type) where
  | answer (a : Answer)
  /-- Something to wait for, which gives the answer. -/
  | pending (await : σ → Call Answer × σ)

/-- The answer of a call. Waiting for it takes time on top of the call. -/
def Reply.settle : Call (Reply σ) × σ → Call Answer × σ
  | (⟨.error e, seconds⟩, s) => (⟨.error e, seconds⟩, s)
  | (⟨.ok (.answer a), seconds⟩, s) => (⟨.ok a, seconds⟩, s)
  | (⟨.ok (.pending await), seconds⟩, s) =>
    let (c, s) := await s
    (⟨c.ending, seconds + c.seconds⟩, s)

/-- Something that is called with a request, if it can be. -/
inductive Callee (σ : Type) where
  | callable (call : Request → σ → Call (Reply σ) × σ)
  | uncallable (v : Value)

/-- An engine that calls something and waits for the answer. -/
def Callee.engine : Callee σ → Engine σ
  | .callable call => .callable fun r s => Reply.settle (call r s)
  | .uncallable v => .uncallable v

structure Supplied (σ : Type) where
  /-- What its attribute `lint` is, if it has one. -/
  lint : Option (Callee σ)
  itself : Callee σ

namespace Supplied

def callee (e : Supplied σ) : Callee σ :=
  match e.lint with
  | some (.callable call) => .callable call
  | _ => e.itself

def engine (e : Supplied σ) : Engine σ := e.callee.engine

def ask (e : Supplied σ) (rulesDirectory : Option Path) (relative text : String)
    (configuration : Table) (s : σ) : Call Payload × σ :=
  e.engine.run ⟨relative, text, configuration, rulesDirectory⟩ s

end Supplied

end LintRun
