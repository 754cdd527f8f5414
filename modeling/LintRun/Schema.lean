import LintRun.Value
import LintRun.Decimal.Lenient

/-!
# Checking values against a schema

Settings, options and payloads are structured values with an expected shape. A check either gives
the typed value or lists every defect, in the order of the fields, each with the way to it. Checks
are lenient: a number may be written as text, a switch as a number.
-/
namespace LintRun.Schema

inductive Defect where
  | missing
  | jsonInvalid
  | modelType
  | listType
  | tableType
  | tupleType
  | textType
  | pathType
  | boolType
  | boolParsing
  | intType
  | intParsing
  | intParsingSize
  | intFromFloat
  | notFinite
  | floatType
  | floatParsing
  | notPositive
  | unusable
  | unknownKey
  deriving DecidableEq, Repr

def Defect.name : Defect → String
  | .missing => "missing"
  | .jsonInvalid => "json_invalid"
  | .modelType => "model_type"
  | .listType => "list_type"
  | .tableType => "dict_type"
  | .tupleType => "tuple_type"
  | .textType => "string_type"
  | .pathType => "path_type"
  | .boolType => "bool_type"
  | .boolParsing => "bool_parsing"
  | .intType => "int_type"
  | .intParsing => "int_parsing"
  | .intParsingSize => "int_parsing_size"
  | .intFromFloat => "int_from_float"
  | .notFinite => "finite_number"
  | .floatType => "float_type"
  | .floatParsing => "float_parsing"
  | .notPositive => "greater_than"
  | .unusable => "value_error"
  | .unknownKey => "extra_forbidden"

/-- One step on the way to a value. -/
inductive Step where
  | key (name : String)
  | index (i : Nat)
  deriving DecidableEq, Repr

/-- A defect and the way to it. -/
structure Detail where
  defect : Defect
  way : List Step
  deriving DecidableEq, Repr

/-- A typed value, or all defects. -/
abbrev Checked (α : Type) := Except (List Detail) α

namespace Checked

variable {α β : Type}

/-- A single defect at the value itself. -/
def defect (d : Defect) : Checked α := .error [⟨d, []⟩]

/-- The same check, a step further inside. -/
def under (s : Step) : Checked α → Checked α
  | .ok a => .ok a
  | .error ds => .error (ds.map fun d => ⟨d.defect, s :: d.way⟩)

/-- Both values, or the defects of the first and then of the second. -/
def both : Checked α → Checked β → Checked (α × β)
  | .ok a, .ok b => .ok (a, b)
  | .ok _, .error es => .error es
  | .error ds, .ok _ => .error ds
  | .error ds, .error es => .error (ds ++ es)

/-- A function and its argument, both checked. -/
def apply (f : Checked (α → β)) (a : Checked α) : Checked β :=
  (both f a).map fun (g, x) => g x

/-- Every item checked, each under its index from `i` on. -/
def items (check : Value → Checked α) (i : Nat) : List Value → Checked (List α)
  | [] => .ok []
  | v :: rest => (both (under (.index i) (check v)) (items check (i + 1) rest)).map fun (a, as) =>
      a :: as

end Checked

/-- The least and greatest integers that a float may stand for lie strictly inside ±2^63. -/
def int : Value → Checked Int
  | .bool b => .ok (if b then 1 else 0)
  | .int n => .ok n
  | .float x =>
    if !Decimal.isFinite x then .defect .notFinite
    else
      match Decimal.toInt? x with
      | none => .defect .intFromFloat
      | some n => if -Int.pow 2 63 < n && n < Int.pow 2 63 then .ok n else .defect .intParsingSize
  | .text s =>
    match Decimal.lenientInt s.toList with
    | .value n => .ok n
    | .tooLong => .defect .intParsingSize
    | .unreadable => .defect .intParsing
  | _ => .defect .intType

/-- An integer beyond the doubles is no float. -/
def float : Value → Checked Float
  | .bool b => .ok (if b then 1 else 0)
  | .int n =>
    let x := Decimal.ofInt n
    if Decimal.isFinite x then .ok x else .defect .floatType
  | .float x => .ok x
  | .text s =>
    match Decimal.lenientFloat? s.toList with
    | some x => .ok x
    | none => .defect .floatParsing
  | _ => .defect .floatType

/-- A float above zero; infinity is, not-a-number is not. -/
def positiveFloat (v : Value) : Checked Float :=
  match float v with
  | .ok x => if 0 < x then .ok x else .defect .notPositive
  | .error ds => .error ds

/-- The switch that a word turns on or off. -/
def switch? (s : String) : Option Bool :=
  let word := s.map Char.toLower
  if ["1", "true", "t", "yes", "y", "on"].contains word then some true
  else if ["0", "false", "f", "no", "n", "off"].contains word then some false
  else none

/-- Whether an integer fits into a machine word of 64 bits with a sign. -/
def fitsWord (n : Int) : Bool := -Int.pow 2 63 ≤ n && n < Int.pow 2 63

def switchOf (n : Int) : Checked Bool :=
  if n = 0 then .ok false else if n = 1 then .ok true else .defect .boolParsing

/-- A switch: a truth value, zero or one, or a word for it. A number that is no integer, or does
not fit into a machine word, is not even taken for one of the two numbers. -/
def bool : Value → Checked Bool
  | .bool b => .ok b
  | .int n => if fitsWord n then switchOf n else .defect .boolType
  | .float x =>
    match int (.float x) with
    | .ok n => switchOf n
    | .error _ => .defect .boolType
  | .text s =>
    match switch? s with
    | some b => .ok b
    | none => .defect .boolParsing
  | _ => .defect .boolType

def text : Value → Checked String
  | .text s => .ok s
  | _ => .defect .textType

/-- A path, written as a text. -/
def path : Value → Checked String
  | .text s => .ok s
  | _ => .defect .pathType

/-- Texts in a fixed row. -/
def texts : Value → Checked (List String)
  | .list vs => Checked.items text 0 vs
  | _ => .defect .tupleType

def listOf {α : Type} (check : Value → Checked α) : Value → Checked (List α)
  | .list vs => Checked.items check 0 vs
  | _ => .defect .listType

def optional {α : Type} (check : Value → Checked α) : Value → Checked (Option α)
  | .null => .ok none
  | v => (check v).map some

def model {α : Type} (check : Table → Checked α) : Value → Checked α
  | .table entries => check entries
  | _ => .defect .modelType

def required {α : Type} (check : Value → Checked α) (key : String) (t : Table) : Checked α :=
  Checked.under (.key key) (match Entries.get? key t with
    | some v => check v
    | none => .defect .missing)

/-- A field that must be there under one of two keys; the first one wins when both are. -/
def requiredEither {α : Type} (check : Value → Checked α) (key other : String) (t : Table) :
    Checked α :=
  if (Entries.get? key t).isNone && (Entries.get? other t).isSome then required check other t
  else required check key t

/-- A field with a value for when it is left out. -/
def withDefault {α : Type} (check : Value → Checked α) (key : String) (a : α) (t : Table) :
    Checked α :=
  match Entries.get? key t with
  | some v => Checked.under (.key key) (check v)
  | none => .ok a

end LintRun.Schema
