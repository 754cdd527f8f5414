import LintRun.Flow

/-!
# Records in a store

The records of a run are objects, and one object may come to it more than once. Here records lie in
a store under keys, and a stage changes them there: a record that comes again comes as it was left.
-/
namespace LintRun

/-- The records that lie under keys. -/
abbrev Store (ι : Type) := ι → Record

variable {ι σ : Type} [DecidableEq ι]

def Store.put (store : Store ι) (k : ι) (r : Record) : Store ι :=
  fun other => if other = k then r else store other

/-- What a stage does for records in a store: events, the store and the state afterwards, and the
error that stopped it, if any. -/
structure Sweep (ι σ : Type) where
  events : List Event
  store : Store ι
  state : σ
  error : Option Error

/-- What a run does for records in a store, and the tally at its end. -/
structure Tour (ι σ : Type) extends Sweep ι σ where
  tally : Tally

/-- The linting stage over the records under keys, in order. -/
def Linter.processIn (l : Linter σ) (s : σ) (store : Store ι) : List ι → Sweep ι σ
  | [] => ⟨[], store, s, none⟩
  | k :: rest =>
    let now := l.handle (store k) s
    match now.fate with
    | .failed e => ⟨now.events, store, now.state, some e⟩
    | .dropped =>
      let later := l.processIn now.state store rest
      ⟨now.events ++ later.events, later.store, later.state, later.error⟩
    | .emitted linted =>
      let later := l.processIn now.state (store.put k linted) rest
      ⟨now.events ++ .emit linted :: later.events, later.store, later.state, later.error⟩

/-- A whole run over the records under keys, in order. -/
def Flow.runIn [Wording] (f : Flow σ) (s : σ) (t : Tally) (store : Store ι) : List ι → Tour ι σ
  | [] =>
    let verdict := f.judge.finish t s
    ⟨⟨verdict.events, store, verdict.state, verdict.error⟩, verdict.tally⟩
  | k :: rest =>
    let now := f.linter.handle (store k) s
    match now.fate with
    | .failed e => ⟨⟨now.events, store, now.state, some e⟩, t⟩
    | .dropped =>
      let later := f.runIn now.state t store rest
      ⟨⟨now.events ++ later.events, later.store, later.state, later.error⟩, later.tally⟩
    | .emitted linted =>
      let ruling := f.judge.handle t now.state linted
      match ruling.error with
      | some e =>
        ⟨⟨now.events ++ ruling.events, store.put k linted, ruling.state, some e⟩, ruling.tally⟩
      | none =>
        let later := f.runIn ruling.state ruling.tally (store.put k linted) rest
        ⟨⟨now.events ++ ruling.events ++ .emit linted :: later.events, later.store, later.state,
          later.error⟩, later.tally⟩

end LintRun
