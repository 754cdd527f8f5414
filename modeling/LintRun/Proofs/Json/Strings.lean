import LintRun.Json.Lexer
import LintRun.Json.Printer

/-!
# Strings there and back

A string is spelled with escapes and read in two steps: scanning gives pieces, and joining them
gives characters. Both steps undo the escapes character by character, a character beyond U+FFFF as
a pair of surrogates, so a string is read however it is spelled (`readText_of_spellsText`). A string
that is written is spelled in one of these ways (`spellsText_escaped`).
-/
namespace LintRun.Json

/-- The first half of the surrogate pair of a character beyond U+FFFF. -/
def highHalf (n : Nat) : Nat := 0xD800 + (n - 65536) / 1024

/-- The second half of the surrogate pair of a character beyond U+FFFF. -/
def lowHalf (n : Nat) : Nat := 0xDC00 + (n - 65536) % 1024

/-- Four hexadecimal digits, in either case, behind a backslash and a `u` spell a code unit. -/
def SpellsUnit (n : Nat) (cs : List Char) : Prop :=
  ∃ a b c d, cs = ['\\', 'u', a, b, c, d] ∧ hexNumber? [a, b, c, d] = some n

/-- The ways in which a character is spelled, each with the pieces that it is scanned as. -/
inductive Escapes (c : Char) : List Char → List Piece → Prop where
  /-- By a letter behind a backslash. -/
  | short (e : Char) (other : e ≠ 'u') (escape : shortEscape? e = some c) :
    Escapes c ['\\', e] [.char c]
  /-- As it is. -/
  | plain (noQuote : c ≠ '"') (noEscape : c ≠ '\\') (printable : 32 ≤ c.toNat) :
    Escapes c [c] [.char c]
  /-- By its code unit. -/
  | unit (cs : List Char) (spells : SpellsUnit c.toNat cs) : Escapes c cs [.unit c.toNat]
  /-- By a pair of surrogates. -/
  | pair (large : 65536 ≤ c.toNat) (front back : List Char)
    (high : SpellsUnit (highHalf c.toNat) front) (low : SpellsUnit (lowHalf c.toNat) back) :
    Escapes c (front ++ back) [.unit (highHalf c.toNat), .unit (lowHalf c.toNat)]

/-- Characters between quotes spell the characters of a string. -/
inductive SpellsText : List Char → List Char → Prop where
  | nil : SpellsText [] []
  | cons {c : Char} {front : List Char} {ps : List Piece} {cs s : List Char}
    (escapes : Escapes c front ps) (others : SpellsText cs s) : SpellsText (front ++ cs) (c :: s)

/-- A character is no surrogate. -/
theorem toNat_valid (c : Char) :
    c.toNat < 0xD800 ∨ 0xDFFF < c.toNat ∧ c.toNat < 0x110000 := c.valid

/-- Each half of a pair is a code unit of its kind. -/
theorem halves_bounds (c : Char) (large : 65536 ≤ c.toNat) :
    (0xD800 ≤ highHalf c.toNat ∧ highHalf c.toNat < 0xDC00) ∧
      0xDC00 ≤ lowHalf c.toNat ∧ lowHalf c.toNat < 0xE000 := by
  have valid := toNat_valid c
  unfold highHalf lowHalf
  omega

theorem hexDigit?_digitChar (d : Nat) (small : d < 16) : hexDigit? d.digitChar = some d := by
  have all : ∀ d < 16, hexDigit? d.digitChar = some d := by decide
  exact all d small

/-- Four hexadecimal digits are read as the number that they were written for. -/
theorem hexNumber?_hex4 (n : Nat) (small : n < 65536) : hexNumber? (hex4 n) = some n := by
  have digit (k : Nat) : hexDigit? (n / k % 16).digitChar = some (n / k % 16) :=
    hexDigit?_digitChar _ (Nat.mod_lt _ (by decide))
  have last : hexDigit? (n % 16).digitChar = some (n % 16) :=
    hexDigit?_digitChar _ (Nat.mod_lt _ (by decide))
  simp only [hexNumber?, hex4, List.map, List.foldlM, digit, last, Option.map_some,
    Option.bind_eq_bind, Option.bind_some, pure]
  congr 1
  omega

theorem spellsUnit_unitEscape (n : Nat) (small : n < 65536) : SpellsUnit n (unitEscape n) :=
  ⟨_, _, _, _, rfl, hexNumber?_hex4 n small⟩

theorem escapeChar_escapes (c : Char) : ∃ ps, Escapes c (escapeChar c) ps := by
  have named (n : Nat) (code : c.toNat = n) : Char.ofNat n = c := by
    rw [← code, Char.ofNat_toNat]
  unfold escapeChar
  dsimp only
  repeat' split
  · next same => exact ⟨_, .short '"' (by decide) (by rw [same]; rfl)⟩
  · next same => exact ⟨_, .short '\\' (by decide) (by rw [same]; rfl)⟩
  · next same => exact ⟨_, .short 'n' (by decide) (by rw [same]; rfl)⟩
  · next same => exact ⟨_, .short 'r' (by decide) (by rw [same]; rfl)⟩
  · next same => exact ⟨_, .short 't' (by decide) (by rw [same]; rfl)⟩
  · next code => exact ⟨_, .short 'b' (by decide) (by rw [← named 8 code]; rfl)⟩
  · next code => exact ⟨_, .short 'f' (by decide) (by rw [← named 12 code]; rfl)⟩
  · next noQuote noEscape _ _ _ _ _ printable =>
    exact ⟨_, .plain noQuote noEscape printable.1⟩
  · next small => exact ⟨_, .unit _ (spellsUnit_unitEscape _ small)⟩
  · next large =>
    obtain ⟨⟨-, high⟩, -, low⟩ := halves_bounds c (by omega)
    exact ⟨_, .pair (by omega) _ _ (spellsUnit_unitEscape (highHalf c.toNat) (by omega))
      (spellsUnit_unitEscape (lowHalf c.toNat) (by omega))⟩

/-- A string that is written with its escapes is spelled. -/
theorem spellsText_escaped (s : List Char) : SpellsText (s.flatMap escapeChar) s := by
  induction s with
  | nil => exact .nil
  | cons c s ih =>
    obtain ⟨ps, escapes⟩ := escapeChar_escapes c
    exact .cons escapes ih

section Scan

variable (start i : Nat) (rest : List Char)

/-- What pieces add to the scan of what follows them. -/
def prepend (ps : List Piece) (scanned : Except Fault (List Piece × Nat)) :
    Except Fault (List Piece × Nat) :=
  scanned.map fun (qs, j) => (ps ++ qs, j)

theorem prepend_prepend (ps qs : List Piece) (scanned : Except Fault (List Piece × Nat)) :
    prepend ps (prepend qs scanned) = prepend (ps ++ qs) scanned := by
  cases scanned with
  | error f => rfl
  | ok found => simp [prepend, Except.map]

theorem scanText_plain (c : Char) (noQuote : c ≠ '"') (noEscape : c ≠ '\\')
    (printable : 32 ≤ c.toNat) :
    scanText start i (c :: rest) = prepend [.char c] (scanText start (i + 1) rest) := by
  have large : ¬ c.toNat < 32 := by omega
  rw [scanText.eq_5 _ _ _ _ (fun _ _ _ _ _ same => absurd same noEscape)
    (fun _ _ same => absurd same noEscape), if_neg noQuote, if_neg noEscape, if_neg large]
  rfl

theorem scanText_short (e c : Char) (other : e ≠ 'u') (escape : shortEscape? e = some c) :
    scanText start i ('\\' :: e :: rest) =
      prepend [.char c] (scanText start (i + 2) rest) := by
  rw [scanText.eq_4 _ _ _ _ (fun _ _ _ _ _ same => absurd same other), if_neg other, escape]
  rfl

/-- A code unit is scanned if anything follows its escape. -/
theorem scanText_unit (n : Nat) (cs : List Char) (spells : SpellsUnit n cs) (more : rest ≠ []) :
    scanText start i (cs ++ rest) = prepend [.unit n] (scanText start (i + cs.length) rest) := by
  obtain ⟨a, b, c, d, rfl, number⟩ := spells
  obtain ⟨x, others, rfl⟩ := List.exists_cons_of_ne_nil more
  exact scanText.eq_2 _ _ _ _ _ _ _ _ _ number

/-- An escaped character is scanned as its pieces if anything follows it. -/
theorem scanText_escapes (more : rest ≠ []) (c : Char) (cs : List Char) (ps : List Piece)
    (escapes : Escapes c cs ps) :
    scanText start i (cs ++ rest) = prepend ps (scanText start (i + cs.length) rest) := by
  cases escapes with
  | short e other escape => exact scanText_short start i rest e c other escape
  | plain noQuote noEscape printable =>
    exact scanText_plain start i rest c noQuote noEscape printable
  | unit cs spells => exact scanText_unit start i rest c.toNat cs spells more
  | pair large front back high low =>
    have first := scanText_unit start i (back ++ rest) _ front high (by simp [more])
    rw [List.append_assoc, first, scanText_unit start _ rest _ back low more, prepend_prepend,
      List.length_append, Nat.add_assoc]
    rfl

end Scan

/-- The pieces of an escaped character are joined to that character. -/
theorem joinPieces_escapes (allowed : Bool) (c : Char) (cs : List Char) (ps : List Piece)
    (escapes : Escapes c cs ps) (rest : List Piece) :
    joinPieces allowed (ps ++ rest) = (joinPieces allowed rest).map (c :: ·) := by
  have valid := toNat_valid c
  cases escapes with
  | short => rfl
  | plain => rfl
  | unit cs spells =>
    have alone : lone? allowed c.toNat = some c := by
      simp [lone?, Char.ofNat_toNat]
      omega
    have notHigh : isHighSurrogate c.toNat = false := by
      simp [isHighSurrogate]
      omega
    cases rest with
    | nil => simp [joinPieces, alone]
    | cons p rest =>
      cases p with
      | char x => simp [joinPieces, alone]
      | unit m => simp [joinPieces, alone, notHigh]
  | pair large front back =>
    obtain ⟨high, low⟩ := halves_bounds c large
    have joined : joinSurrogates (highHalf c.toNat) (lowHalf c.toNat) = c := by
      have code : 0x10000 + (highHalf c.toNat - 0xD800) * 1024 + (lowHalf c.toNat - 0xDC00) =
          c.toNat := by
        unfold highHalf lowHalf
        omega
      rw [joinSurrogates, code, Char.ofNat_toNat]
    simp [joinPieces, isHighSurrogate, isLowSurrogate, high, low, joined]

/-- What spells a string is scanned up to the quote behind it, as pieces that are joined to the
characters of the string. -/
theorem scanText_of_spellsText {cs s : List Char} (spells : SpellsText cs s) (start i : Nat)
    (rest : List Char) :
    ∃ ps, scanText start i (cs ++ '"' :: rest) = .ok (ps, i + cs.length + 1) ∧
      ∀ allowed, joinPieces allowed ps = some s := by
  induction spells generalizing i with
  | nil => exact ⟨[], by simp [scanText], fun _ => by simp [joinPieces]⟩
  | @cons c front first cs s escapes _ ih =>
    obtain ⟨others, scanned, joined⟩ := ih (i + front.length)
    refine ⟨first ++ others, ?_, ?_⟩
    · rw [List.append_assoc, scanText_escapes start i _ (by simp) c _ _ escapes, scanned]
      simp [prepend, Except.map, Nat.add_assoc]
    · intro allowed
      rw [joinPieces_escapes allowed c _ _ escapes, joined]
      rfl

/-- A string is read however it is spelled, behind its first quote. -/
theorem readText_of_spellsText (d : Dialect) (start : Nat) {cs s : List Char}
    (spells : SpellsText cs s) (rest : List Char) :
    readText d start (cs ++ '"' :: rest) = (.text (String.ofList s), cs.length + 2) := by
  obtain ⟨ps, scanned, joined⟩ := scanText_of_spellsText spells start (start + 1) rest
  simp only [readText, scanned, joined]
  congr 1
  omega

end LintRun.Json
