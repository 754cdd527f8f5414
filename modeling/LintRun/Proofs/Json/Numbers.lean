import LintRun.Json.Lexer
import LintRun.Proofs.Decimal.Digits

/-!
# Numbers as they are spelled

A number is a sign or none, digits, a point with digits behind it or none, and an exponent or none
(`Number`). It is read as the number that it is if nothing behind it goes on with it (`EndsNumber`),
unless its digits are too many for the dialect (`readNumber?_chars`).
-/
namespace LintRun.Json

open LintRun.Decimal

/-- Characters do not go on with a number that ends before them. -/
def EndsNumber (rest : List Char) : Prop :=
  ∀ c, rest.head? = some c → isDigit c = false ∧ c ≠ '.' ∧ c ≠ 'e' ∧ c ≠ 'E'

theorem EndsNumber.nil : EndsNumber [] := by
  intro c none
  cases none

theorem EndsNumber.cons (c : Char) (rest : List Char)
    (ends : isDigit c = false ∧ c ≠ '.' ∧ c ≠ 'e' ∧ c ≠ 'E') : EndsNumber (c :: rest) := by
  rintro x ⟨⟩
  exact ends

/-- The exponent of a number, with its letter. -/
structure Exponent where
  letter : Char
  sign : List Char
  digits : List Char
  isLetter : letter = 'e' ∨ letter = 'E'
  isSign : sign = [] ∨ sign = ['+'] ∨ sign = ['-']
  nonempty : digits ≠ []
  all : ∀ c ∈ digits, isDigit c = true

namespace Exponent

variable (e : Exponent)

def chars : List Char := e.letter :: (e.sign ++ e.digits)

def value : Int := if e.sign = ['-'] then -natOfDigits e.digits else natOfDigits e.digits

end Exponent

/-- The parts of a number. Without a fraction it has no point, and no zero stands in front of other
digits. -/
structure Number where
  negative : Bool
  whole : List Char
  fraction : List Char
  exponent : Option Exponent
  nonempty : whole ≠ []
  all : ∀ c ∈ whole, isDigit c = true
  zero : whole.head? = some '0' → whole = ['0']
  fractionAll : ∀ c ∈ fraction, isDigit c = true

namespace Number

variable (n : Number)

def point : List Char := if n.fraction = [] then [] else '.' :: n.fraction

def power : List Char := n.exponent.elim [] Exponent.chars

def chars : List Char := (if n.negative then ['-'] else []) ++ (n.whole ++ (n.point ++ n.power))

def isFloat : Bool := !n.fraction.isEmpty || n.exponent.isSome

/-- The value that is spelled: a float if there is a fraction or an exponent, else an integer. -/
def value : Value :=
  if n.isFloat then
    .float (Numeral.mk n.negative n.whole n.fraction (n.exponent.elim 0 Exponent.value)).toFloat
  else .int (if n.negative then -natOfDigits n.whole else natOfDigits n.whole)

end Number

/-- Digits are taken up to a character that is none. -/
theorem takeWhile_isDigit {digits rest : List Char} (all : ∀ c ∈ digits, isDigit c = true)
    (stops : ∀ c, rest.head? = some c → isDigit c = false) :
    (digits ++ rest).takeWhile isDigit = digits := by
  have none : rest.takeWhile isDigit = [] := by
    cases rest with
    | nil => rfl
    | cons c rest => simp [stops c rfl]
  rw [List.takeWhile_append_of_pos all, none, List.append_nil]

theorem takeSign_digits {sign digits : List Char} (rest : List Char)
    (isSign : sign = [] ∨ sign = ['+'] ∨ sign = ['-']) (some : digits ≠ [])
    (all : ∀ c ∈ digits, isDigit c = true) :
    takeSign (sign ++ digits ++ rest) = (decide (sign = ['-']), digits ++ rest) := by
  obtain ⟨c, others, rfl⟩ := List.exists_cons_of_ne_nil some
  rcases isSign with rfl | rfl | rfl
  · have minus := ne_of_isDigit c '-' (all c (by simp)) rfl
    have plus := ne_of_isDigit c '+' (all c (by simp)) rfl
    simp [takeSign, minus, plus]
  · rfl
  · rfl

/-- Without its sign a number goes on with its digits. -/
theorem Number.body_chars (n : Number) (rest : List Char) :
    ((n.chars ++ rest).head? == some '-') = n.negative ∧
      (if n.negative then (n.chars ++ rest).tail else n.chars ++ rest) =
        n.whole ++ (n.point ++ (n.power ++ rest)) := by
  obtain ⟨c, others, digits⟩ := List.exists_cons_of_ne_nil n.nonempty
  have digit : c ≠ '-' := ne_of_isDigit c '-' (n.all c (by simp [digits])) rfl
  cases negative : n.negative <;> simp [Number.chars, negative, digits, digit]

theorem Number.length_chars (n : Number) :
    (if n.negative then 1 else 0) + n.whole.length + n.point.length + n.power.length =
      n.chars.length := by
  cases negative : n.negative <;> simp [Number.chars, negative] <;> omega

/-- A number with a point or an exponent is a float. -/
theorem Number.isFloat_eq (n : Number) :
    (n.point.length != 0 || n.power.length != 0) = n.isFloat := by
  have point : (n.point.length != 0) = !n.fraction.isEmpty := by
    by_cases none : n.fraction = [] <;> simp [Number.point, none]
  have power : (n.power.length != 0) = n.exponent.isSome := by
    cases exponent : n.exponent <;> simp [Number.power, exponent, Exponent.chars]
  rw [point, power, Number.isFloat]

section Parts

variable {rest : List Char} (ends : EndsNumber rest)

include ends

theorem exponentPart_chars (e : Exponent) :
    exponentPart (e.chars ++ rest) = (e.value, e.chars.length) := by
  have taken := takeSign_digits rest e.isSign e.nonempty e.all
  have digits : (e.digits ++ rest).takeWhile isDigit = e.digits :=
    takeWhile_isDigit e.all fun c head => (ends c head).1
  have letter : (e.letter = 'e' || e.letter = 'E') = true := by simpa using e.isLetter
  have nonempty : e.digits.isEmpty = false := by simpa using e.nonempty
  have width : 1 + ((e.sign ++ e.digits ++ rest).length - (e.digits ++ rest).length) +
      e.digits.length = e.chars.length := by
    simp only [Exponent.chars, List.length_append, List.length_cons]
    omega
  rw [← width, Exponent.chars, List.cons_append, exponentPart, if_pos letter, taken]
  simp only [digits, nonempty, Bool.false_eq_true, if_false, decide_eq_true_eq, Exponent.value]

theorem exponentPart_power (n : Number) :
    exponentPart (n.power ++ rest) = (n.exponent.elim 0 Exponent.value, n.power.length) := by
  unfold Number.power
  cases n.exponent with
  | some e => exact exponentPart_chars ends e
  | none =>
    cases rest with
    | nil => rfl
    | cons c rest =>
      obtain ⟨-, -, lower, upper⟩ := ends c rfl
      simp [exponentPart, lower, upper]

/-- What follows the digits of a number is no digit, and no point either. -/
theorem head?_power (n : Number) (c : Char) (head : (n.power ++ rest).head? = some c) :
    isDigit c = false ∧ c ≠ '.' := by
  unfold Number.power at head
  cases exponent : n.exponent with
  | some e =>
    rw [exponent] at head
    obtain rfl : e.letter = c := Option.some.inj head
    rcases e.isLetter with letter | letter <;> rw [letter] <;> decide
  | none =>
    rw [exponent] at head
    exact ⟨(ends c head).1, (ends c head).2.1⟩

theorem fractionDigits_point (n : Number) :
    fractionDigits (n.point ++ (n.power ++ rest)) = n.fraction := by
  unfold Number.point
  by_cases none : n.fraction = []
  · rw [if_pos none, none, List.nil_append]
    unfold fractionDigits
    split
    · next others same => exact absurd rfl (head?_power ends n '.' (by rw [same]; rfl)).2
    · rfl
  · rw [if_neg none]
    exact takeWhile_isDigit n.fractionAll fun c head => (head?_power ends n c head).1

theorem wholeDigits_whole (n : Number) :
    wholeDigits (n.whole ++ (n.point ++ (n.power ++ rest))) = n.whole := by
  have stops (c : Char) (head : (n.point ++ (n.power ++ rest)).head? = some c) :
      isDigit c = false := by
    unfold Number.point at head
    split at head
    · exact (head?_power ends n c head).1
    · obtain rfl : '.' = c := Option.some.inj head
      rfl
  unfold wholeDigits
  rw [takeWhile_isDigit n.all stops]
  split
  · next others spelled => exact (n.zero (by rw [spelled]; rfl)).symm
  · rfl

/-- A number is read as it is spelled, unless its digits are too many. -/
theorem readNumber?_spelled (d : Dialect) (n : Number) :
    readNumber? d (n.chars ++ rest) =
      some (if d.findsLong n.isFloat n.whole.length then .longNumber n.whole.length
        else .scalar n.value, n.chars.length) := by
  have pointLength : (if n.fraction.isEmpty then 0 else n.fraction.length + 1) =
      n.point.length := by
    by_cases none : n.fraction = [] <;> simp [Number.point, none]
  have nonempty : n.whole.isEmpty = false := by simpa using n.nonempty
  have behind : (n.whole ++ (n.point ++ (n.power ++ rest))).drop
      (n.whole.length + n.point.length) = n.power ++ rest := by
    rw [← List.append_assoc n.whole, ← List.length_append, List.drop_left]
  obtain ⟨sign, body⟩ := n.body_chars rest
  simp only [readNumber?, sign, body, wholeDigits_whole ends n, nonempty, List.drop_left,
    fractionDigits_point ends n, pointLength, behind, exponentPart_power ends n, n.isFloat_eq,
    n.length_chars, Bool.false_eq_true, if_false, Number.value]
  cases d.findsLong n.isFloat n.whole.length <;> cases n.isFloat <;> rfl

theorem readNumber?_chars (d : Dialect) (n : Number)
    (few : d.findsLong n.isFloat n.whole.length = false) :
    readNumber? d (n.chars ++ rest) = some (.scalar n.value, n.chars.length) := by
  rw [readNumber?_spelled ends d n, few]
  rfl

end Parts

/-- A text that no word is in front of starts with no word. -/
theorem readWord?_eq_none (cs : List Char)
    (other : ∀ w ∈ ["null", "true", "false", "NaN", "Infinity", "-Infinity"],
      w.toList.isPrefixOf cs = false) : readWord? cs = none := by
  apply List.findSome?_eq_none_iff.mpr
  rintro ⟨w, v⟩ member
  have named : w ∈ words.map Prod.fst := List.mem_map_of_mem member
  simp [other w named]

section Start

variable (n : Number)

/-- A number starts with a digit, or with a minus and a digit. -/
theorem Number.exists_chars_eq_cons :
    ∃ c others, isDigit c = true ∧
      n.chars = if n.negative then '-' :: c :: others else c :: others := by
  obtain ⟨c, others, digits⟩ := List.exists_cons_of_ne_nil n.nonempty
  refine ⟨c, others ++ (n.point ++ n.power), n.all c (by simp [digits]), ?_⟩
  cases negative : n.negative <;> simp [Number.chars, negative, digits]

/-- No word starts like a number. -/
theorem readWord?_chars (rest : List Char) : readWord? (n.chars ++ rest) = none := by
  obtain ⟨c, others, digit, spelled⟩ := n.exists_chars_eq_cons
  have other (x : Char) (letter : isDigit x = false) : x ≠ c :=
    (ne_of_isDigit c x digit letter).symm
  apply readWord?_eq_none
  rw [spelled]
  cases n.negative with
  | true => simp [List.isPrefixOf, other 'I' rfl]
  | false =>
    simp [List.isPrefixOf, other 'n' rfl, other 't' rfl, other 'f' rfl, other 'N' rfl,
      other 'I' rfl, other '-' rfl]

/-- A number starts like no other token. -/
theorem Number.head_chars :
    ∃ c others, n.chars = c :: others ∧ isGap c = false ∧ c ∉ "[]\x7b\x7d:,\"".toList ∧
      c ≠ '\ufeff' := by
  obtain ⟨c, others, digit, spelled⟩ := n.exists_chars_eq_cons
  cases negative : n.negative with
  | true => exact ⟨'-', c :: others, by simp [spelled, negative], rfl, by decide, by decide⟩
  | false =>
    refine ⟨c, others, by simp [spelled, negative], ?_, ?_, ne_of_isDigit c '\ufeff' digit rfl⟩
    · have gap (x : Char) (blank : isDigit x = false) : (c == x) = false := by
        simpa using ne_of_isDigit c x digit blank
      simp only [isGap, gap ' ' rfl, gap '\t' rfl, gap '\n' rfl, gap '\r' rfl, Bool.or_self]
    · intro member
      have none : ∀ x ∈ "[]\x7b\x7d:,\"".toList, isDigit x = false := by simp [isDigit]
      rw [none c member] at digit
      cases digit

end Start

end LintRun.Json
