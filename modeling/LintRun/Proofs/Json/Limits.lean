import Mathlib.Data.List.Forall2
import LintRun.Proofs.Json.Sizes

/-!
# The limit on digits

Without its limit on digits a dialect reads what it reads with it, as the same value
(`readChars_anyDigits`): the tokens are the same, up to numbers that are not read for their digits,
and these are never in their place. So a text whose value has too long an integer is not read at all
(`exists_error_of_long`).
-/
namespace LintRun.Json

/-- Two tokens are the same, or the first one is a number that is not read for its digits. -/
inductive Token.Loosens : Token → Token → Prop where
  | same (token : Token) : Loosens token token
  | number (digits : Nat) (v : Value) : Loosens (.longNumber digits) (.scalar v)

/-- The same for their offsets, too. -/
def Lexeme.Loosens (l m : Lexeme) : Prop := l.offset = m.offset ∧ l.token.Loosens m.token

section Limits

variable (d : Dialect)

theorem Dialect.findsLong_anyDigits (isFloat : Bool) (digits : Nat) :
    { d with maxDigits := none }.findsLong isFloat digits = false := by
  simp [findsLong]

theorem Token.Loosens.isLast {t u : Token} (loosens : t.Loosens u) : t.isLast = u.isLast := by
  cases loosens <;> rfl

/-- What a number is read as differs only in whether it has too many digits. -/
theorem readNumber?_anyDigits (cs : List Char) :
    Option.Rel (fun t u => t.1.Loosens u.1 ∧ t.2 = u.2) (readNumber? d cs)
      (readNumber? { d with maxDigits := none } cs) := by
  simp only [readNumber?, Dialect.findsLong_anyDigits, Bool.false_eq_true, if_false]
  generalize wholeDigits _ = whole
  cases whole.isEmpty with
  | true => exact .none
  | false =>
    generalize d.findsLong _ _ = long
    generalize (_ != 0 || _ != 0) = isFloat
    cases long <;> cases isFloat
    · exact .some ⟨.same _, rfl⟩
    · exact .some ⟨.same _, rfl⟩
    · exact .some ⟨.number _ _, rfl⟩
    · exact .some ⟨.number _ _, rfl⟩

theorem readToken_anyDigits (offset : Nat) (c : Char) (rest : List Char) :
    (readToken d offset c rest).1.Loosens (readToken { d with maxDigits := none } offset c rest).1 ∧
      (readToken d offset c rest).2 = (readToken { d with maxDigits := none } offset c rest).2 := by
  unfold readToken
  split
  case h_8 =>
    cases readWord? (c :: rest) with
    | some word => exact ⟨.same _, rfl⟩
    | none =>
      have number := readNumber?_anyDigits d (c :: rest)
      revert number
      generalize readNumber? d (c :: rest) = first
      generalize readNumber? { d with maxDigits := none } (c :: rest) = second
      rintro (alike | _)
      · exact alike
      · exact ⟨.same _, rfl⟩
  all_goals exact ⟨.same _, rfl⟩

theorem lexFrom_anyDigits (cs : List Char) (offset skip : Nat) :
    List.Forall₂ Lexeme.Loosens (lexFrom d offset skip cs)
      (lexFrom { d with maxDigits := none } offset skip cs) := by
  induction cs generalizing offset skip with
  | nil => simp [lexFrom]
  | cons c cs ih =>
    cases skip with
    | succ skip => exact ih (offset + 1) skip
    | zero =>
      obtain ⟨loosens, length⟩ := readToken_anyDigits d offset c cs
      simp only [lexFrom]
      cases isGap c with
      | true => exact ih _ _
      | false =>
        refine .cons ⟨rfl, loosens⟩ ?_
        rw [loosens.isLast, length]
        split
        · exact .nil
        · exact ih _ _

/-- A token that is in its place is so without a limit on digits, too. -/
theorem step_anyDigits {s next : State} {l m : Lexeme} (loosens : l.Loosens m)
    (stepped : step d s l = .ok next) : step { d with maxDigits := none } s m = .ok next := by
  obtain ⟨offset, token⟩ := l
  obtain ⟨_, other⟩ := m
  obtain ⟨rfl, loosens⟩ : offset = _ ∧ token.Loosens other := loosens
  cases loosens with
  | same => exact stepped
  | number digits v =>
    -- Such a number is never in its place.
    cases phase : s.phase with
    | firstItem | firstKey =>
      rw [step, phase] at stepped
      cases of_checkDepth stepped
    | _ => simp [step, phase, stepValue, stepKey, stepSeparator] at stepped

theorem run_anyDigits (stop : Nat) {ls ms : List Lexeme}
    (alike : List.Forall₂ Lexeme.Loosens ls ms) (s : State) {v : Value}
    (ran : run d stop s ls = .ok v) : run { d with maxDigits := none } stop s ms = .ok v := by
  induction alike generalizing s with
  | nil => exact ran
  | cons first _ ih =>
    unfold run at ran ⊢
    split at ran
    · next next stepped =>
      rw [step_anyDigits d first stepped]
      exact ih next ran
    · cases ran

/-- What is read within a limit on digits is the same without one. -/
theorem readChars_anyDigits {cs : List Char} {v : Value} (read : readChars d cs = .ok v) :
    readChars { d with maxDigits := none } cs = .ok v := by
  unfold readChars at read ⊢
  split at read
  · cases read
  · next noMark =>
    rw [if_neg noMark]
    exact run_anyDigits d _ (lexFrom_anyDigits d cs 0 0) _ read

/-- A text whose value has an integer with too many digits is not read. -/
theorem exists_error_of_long {cs : List Char} {v : Value} {n : Int}
    (read : readChars { d with maxDigits := none } cs = .ok v) (holds : v.Holds n)
    (long : ¬ d.Takes n) : ∃ f, readChars d cs = .error f := by
  cases limited : readChars d cs with
  | error f => exact ⟨f, rfl⟩
  | ok w =>
    have same : w = v := Except.ok.inj ((readChars_anyDigits d limited).symm.trans read)
    exact absurd (takesAll_of_readChars d cs w limited n (same ▸ holds)) long

end Limits

end LintRun.Json
