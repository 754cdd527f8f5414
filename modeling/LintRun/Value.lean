import LintRun.Moment

/-!
# Structured values

The values that configuration files, settings and linter payloads are made of. A table keeps its
entries in the order of their keys' first appearance.
-/
namespace LintRun

inductive Value where
  | null
  | bool (b : Bool)
  | int (n : Int)
  | float (x : Float)
  | text (s : String)
  | moment (m : Moment)
  | list (items : List Value)
  | table (entries : List (String × Value))
  deriving Inhabited

/-- Entries under keys, in order. -/
abbrev Table := List (String × Value)

namespace Entries

variable {α : Type}

/-- Puts an entry under a key: in the place of the entry that the key had, else at the end. -/
def insert (key : String) (a : α) : List (String × α) → List (String × α)
  | [] => [(key, a)]
  | (k, b) :: rest => if k = key then (key, a) :: rest else (k, b) :: insert key a rest

def get? (key : String) : List (String × α) → Option α
  | [] => none
  | (k, a) :: rest => if k = key then some a else get? key rest

def erase (key : String) (es : List (String × α)) : List (String × α) :=
  es.filter fun e => e.1 ≠ key

/-- Entries put in one after the other: a key keeps its first place and has its last entry. -/
def ofList (es : List (String × α)) : List (String × α) :=
  es.foldl (fun acc e => insert e.1 e.2 acc) []

theorem get?_insert_self (key : String) (a : α) (es : List (String × α)) :
    get? key (insert key a es) = some a := by
  induction es with
  | nil => simp [insert, get?]
  | cons e rest ih =>
    by_cases h : e.1 = key <;> simp [insert, get?, h, ih]

theorem get?_insert_of_ne {key other : String} (h : other ≠ key) (a : α)
    (es : List (String × α)) : get? other (insert key a es) = get? other es := by
  induction es with
  | nil => simp [insert, get?, Ne.symm h]
  | cons e rest ih =>
    by_cases hk : e.1 = key
    · simp [insert, get?, hk, Ne.symm h]
    · simp only [insert, if_neg hk, get?, ih]

end Entries

end LintRun
