import LintRun.Proofs.Json.Strings

/-!
# Strings by their form

Between the quotes of a string stand characters and escapes, in any order (`IsString`). Such a
string is scanned in any case, but an escaped surrogate without its partner stands for no character:
where that is not allowed, a string that spells none is refused (`readText_of_not_spelled`).
-/
namespace LintRun.Json

/-- A part of a string, and the piece that it is scanned as. -/
inductive IsPiece : List Char → Piece → Prop where
  | short {c : Char} (e : Char) (other : e ≠ 'u') (escape : shortEscape? e = some c) :
    IsPiece ['\\', e] (.char c)
  | plain {c : Char} (noQuote : c ≠ '"') (noEscape : c ≠ '\\') (printable : 32 ≤ c.toNat) :
    IsPiece [c] (.char c)
  | unit {n : Nat} {cs : List Char} (spells : SpellsUnit n cs) : IsPiece cs (.unit n)

/-- Characters between quotes are a string by their form, with its pieces. -/
inductive IsString : List Char → List Piece → Prop where
  | nil : IsString [] []
  | cons {front cs : List Char} {p : Piece} {ps : List Piece} (piece : IsPiece front p)
    (others : IsString cs ps) : IsString (front ++ cs) (p :: ps)

section Spelled

theorem IsString.append {first second : List Char} {ps qs : List Piece} (front : IsString first ps)
    (back : IsString second qs) : IsString (first ++ second) (ps ++ qs) := by
  induction front with
  | nil => exact back
  | cons piece _ ih =>
    rw [List.append_assoc]
    exact .cons piece ih

theorem IsString.single {cs : List Char} {p : Piece} (piece : IsPiece cs p) : IsString cs [p] := by
  have string : IsString (cs ++ []) [p] := .cons piece .nil
  rwa [List.append_nil] at string

/-- What spells a character is a string by its form. -/
theorem Escapes.isString {c : Char} {cs : List Char} {ps : List Piece} (escapes : Escapes c cs ps) :
    IsString cs ps := by
  cases escapes with
  | short e other escape => exact .single (.short e other escape)
  | plain noQuote noEscape printable => exact .single (.plain noQuote noEscape printable)
  | unit cs spells => exact .single (.unit spells)
  | pair large front back high low =>
    exact (IsString.single (.unit high)).append (.single (.unit low))

theorem SpellsText.exists_isString {cs s : List Char} (spells : SpellsText cs s) :
    ∃ ps, IsString cs ps := by
  induction spells with
  | nil => exact ⟨[], .nil⟩
  | cons escapes _ ih =>
    obtain ⟨ps, others⟩ := ih
    exact ⟨_, escapes.isString.append others⟩

end Spelled

section Scan

variable (start i : Nat)

theorem scanText_of_isPiece {front rest : List Char} {p : Piece} (piece : IsPiece front p)
    (more : rest ≠ []) :
    scanText start i (front ++ rest) = prepend [p] (scanText start (i + front.length) rest) := by
  cases piece with
  | short e other escape => exact scanText_short start i rest e _ other escape
  | plain noQuote noEscape printable =>
    exact scanText_plain start i rest _ noQuote noEscape printable
  | unit spells => exact scanText_unit start i rest _ _ spells more

theorem scanText_of_isString {cs : List Char} {ps : List Piece} (string : IsString cs ps)
    (rest : List Char) :
    scanText start i (cs ++ '"' :: rest) = .ok (ps, i + cs.length + 1) := by
  induction string generalizing i with
  | nil => simp [scanText]
  | @cons front cs p ps piece _ ih =>
    rw [List.append_assoc, scanText_of_isPiece start i piece (by simp), ih]
    simp [prepend, Except.map, Nat.add_assoc]

end Scan

section Join

theorem hexDigit?_lt {c : Char} {digit : Nat} (read : hexDigit? c = some digit) : digit < 16 := by
  have code (x y : Char) (bound : x ≤ y) : x.toNat ≤ y.toNat := bound
  have ends : '0'.toNat = 48 ∧ '9'.toNat = 57 ∧ 'a'.toNat = 97 ∧ 'f'.toNat = 102 ∧
      'A'.toNat = 65 ∧ 'F'.toNat = 70 := by decide
  obtain ⟨zero, nine, a, f, upperA, upperF⟩ := ends
  unfold hexDigit? at read
  split at read
  · next decimal =>
    simp only [Decimal.isDigit, Bool.and_eq_true, decide_eq_true_eq] at decimal
    have high := code _ _ decimal.2
    have size := Option.some.inj read
    omega
  · split at read
    · next lower =>
      simp only [Bool.and_eq_true, decide_eq_true_eq] at lower
      have high := code _ _ lower.2
      have size := Option.some.inj read
      omega
    · split at read
      · next upper =>
        simp only [Bool.and_eq_true, decide_eq_true_eq] at upper
        have high := code _ _ upper.2
        have size := Option.some.inj read
        omega
      · cases read

/-- Four hexadecimal digits make a code unit. -/
theorem SpellsUnit.lt {n : Nat} {cs : List Char} (spells : SpellsUnit n cs) : n < 65536 := by
  obtain ⟨a, b, c, d, -, number⟩ := spells
  simp only [hexNumber?, List.foldlM, Option.bind_eq_bind, Option.bind_eq_some_iff,
    Option.map_eq_some_iff, pure, Option.some.injEq] at number
  obtain ⟨_, ⟨w, first, rfl⟩, _, ⟨x, second, rfl⟩, _, ⟨y, third, rfl⟩, _, ⟨z, fourth, rfl⟩, rfl⟩ :=
    number
  have small := hexDigit?_lt first
  have small' := hexDigit?_lt second
  have small'' := hexDigit?_lt third
  have small''' := hexDigit?_lt fourth
  omega

theorem toNat_ofNat {n : Nat} (valid : n < 0xD800 ∨ 0xDFFF < n ∧ n < 0x110000) :
    (Char.ofNat n).toNat = n := by
  rw [Char.ofNat, dif_pos valid]
  rfl

/-- A code unit that stands for a character by itself spells it. -/
theorem escapes_of_lone? {n : Nat} {c : Char} {cs : List Char} (spells : SpellsUnit n cs)
    (alone : lone? false n = some c) : Escapes c cs [.unit n] := by
  have small := spells.lt
  unfold lone? at alone
  split at alone
  · cases alone
  · next proper =>
    simp only [Bool.and_eq_true, decide_eq_true_eq] at proper
    obtain rfl := Option.some.inj alone
    have code : (Char.ofNat n).toNat = n := toNat_ofNat (by omega)
    have escapes : Escapes (Char.ofNat n) cs [.unit (Char.ofNat n).toNat] :=
      .unit cs (code.symm ▸ spells)
    rwa [code] at escapes

/-- Two surrogates that belong together spell a character. -/
theorem escapes_of_surrogates {n m : Nat} {front back : List Char} (high : SpellsUnit n front)
    (low : SpellsUnit m back) (both : (isHighSurrogate n && isLowSurrogate m) = true) :
    Escapes (joinSurrogates n m) (front ++ back) [.unit n, .unit m] := by
  simp only [isHighSurrogate, isLowSurrogate, Bool.and_eq_true, decide_eq_true_eq] at both
  have code : (joinSurrogates n m).toNat = 0x10000 + (n - 0xD800) * 1024 + (m - 0xDC00) :=
    toNat_ofNat (by omega)
  have first : highHalf (joinSurrogates n m).toNat = n := by
    rw [code, highHalf]
    omega
  have second : lowHalf (joinSurrogates n m).toNat = m := by
    rw [code, lowHalf]
    omega
  have escapes : Escapes (joinSurrogates n m) (front ++ back)
      [.unit (highHalf (joinSurrogates n m).toNat), .unit (lowHalf (joinSurrogates n m).toNat)] :=
    .pair (by omega) front back (first.symm ▸ high) (second.symm ▸ low)
  rwa [first, second] at escapes

/-- A string whose pieces stand for characters spells these. -/
theorem spellsText_of_joinPieces {ps : List Piece} {cs s : List Char} (string : IsString cs ps)
    (joined : joinPieces false ps = some s) : SpellsText cs s := by
  fun_induction joinPieces false ps generalizing cs s with
  | case1 =>
    cases string
    obtain rfl := Option.some.inj joined
    exact .nil
  | case2 c rest ih =>
    obtain ⟨later, rest, rfl⟩ := Option.map_eq_some_iff.mp joined
    cases string with
    | cons piece others =>
      cases piece with
      | short e other escape => exact .cons (.short e other escape) (ih others rest)
      | plain noQuote noEscape printable =>
        exact .cons (.plain noQuote noEscape printable) (ih others rest)
  | case3 n m rest both ih =>
    obtain ⟨later, rest, rfl⟩ := Option.map_eq_some_iff.mp joined
    cases string with
    | cons first others =>
      cases others with
      | cons second others =>
        cases first with
        | unit high =>
          cases second with
          | unit low =>
            rw [← List.append_assoc]
            exact .cons (escapes_of_surrogates high low both) (ih others rest)
  | case4 n m rest _ c alone ih =>
    obtain ⟨later, rest, rfl⟩ := Option.map_eq_some_iff.mp joined
    cases string with
    | cons first others =>
      cases first with
      | unit spells => exact .cons (escapes_of_lone? spells alone) (ih others rest)
  | case5 => cases joined
  | case6 n rest _ c alone ih =>
    obtain ⟨later, rest, rfl⟩ := Option.map_eq_some_iff.mp joined
    cases string with
    | cons first others =>
      cases first with
      | unit spells => exact .cons (escapes_of_lone? spells alone) (ih others rest)
  | case7 => cases joined

end Join

/-- A string that spells no characters is refused where no surrogate may stand alone. -/
theorem readText_of_not_spelled {d : Dialect} (strict : d.allowsLoneSurrogates = false)
    {cs : List Char} {ps : List Piece} (string : IsString cs ps)
    (unspelled : ¬ ∃ s, SpellsText cs s) (start : Nat) (rest : List Char) :
    readText d start (cs ++ '"' :: rest) = (.unreadable ⟨.loneSurrogate, start⟩, 1) := by
  have scanned := scanText_of_isString start (start + 1) string rest
  have unjoined : joinPieces false ps = none := by
    cases joined : joinPieces false ps with
    | none => rfl
    | some s => exact absurd ⟨s, spellsText_of_joinPieces string joined⟩ unspelled
  simp only [readText, scanned, strict, unjoined]

end LintRun.Json
