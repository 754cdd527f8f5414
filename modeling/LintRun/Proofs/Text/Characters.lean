import Mathlib.Tactic.IntervalCases
import LintRun.Text.Utf8

/-!
# Characters as UTF-8

A character is spelled by one to four bytes. The first byte tells how many are due and bounds the
second one, so that no number is spelled twice and none that is no character is spelled at all.
Whatever comes behind, the bytes of a character are read as that character, and so every text is
read back from its bytes (`decode_encode`).
-/
namespace LintRun.Text.Utf8

theorem toList_loop (bytes : ByteArray) (i : Nat) (read : List UInt8) :
    ByteArray.toList.loop bytes i read = read.reverse ++ bytes.data.toList.drop i := by
  fun_induction ByteArray.toList.loop bytes i read with
  | case1 i read inside ih =>
    have bound : i < bytes.data.toList.length := by simpa using inside
    rw [ih, List.drop_eq_getElem_cons bound]
    simp [ByteArray.get!, inside]
  | case2 i read outside =>
    have bound : bytes.data.toList.length ≤ i := by simpa using Nat.le_of_not_lt outside
    rw [List.drop_eq_nil_of_le bound, List.append_nil]

/-- The bytes of an array, one after the other. -/
theorem toList_eq (bytes : ByteArray) : bytes.toList = bytes.data.toList := by
  rw [ByteArray.toList, toList_loop]
  rfl

/-- The bytes of a text are those of its characters. -/
theorem toList_encode (s : String) :
    (encode s).toList = s.toList.flatMap String.utf8EncodeChar := by
  rw [toList_eq, encode, String.toUTF8_eq_toByteArray, ← String.utf8Encode_toList, List.utf8Encode,
    List.data_toByteArray]

section Bytes

variable (n : Nat)

theorem toNat_ofNat (byte : n < 256) : (UInt8.ofNat n).toNat = n := by
  rw [UInt8.toNat_ofNat']
  exact Nat.mod_eq_of_lt byte

/-- A first byte that asks for one byte more. -/
theorem continuation?_one (low : 194 ≤ n) (high : n < 224) :
    continuation? (UInt8.ofNat n) = some (1, 0x80, 0xBF) := by
  interval_cases n <;> rfl

/-- A first byte that asks for two bytes more. -/
theorem continuation?_two (low : 224 ≤ n) (high : n < 240) :
    continuation? (UInt8.ofNat n) =
      some (2, if n = 224 then 0xA0 else 0x80, if n = 237 then 0x9F else 0xBF) := by
  interval_cases n <;> rfl

/-- A first byte that asks for three bytes more. -/
theorem continuation?_three (low : 240 ≤ n) (high : n < 245) :
    continuation? (UInt8.ofNat n) =
      some (3, if n = 240 then 0x90 else 0x80, if n = 244 then 0x8F else 0xBF) := by
  interval_cases n <;> rfl

/-- A byte within the bounds is taken. -/
theorem readTail_next (bits taken due : Nat) (low high : UInt8) (rest : List UInt8)
    (byte : n < 256) (above : low.toNat ≤ n) (below : n ≤ high.toNat) :
    readTail bits taken (due + 1) low high (UInt8.ofNat n :: rest) =
      readTail (bits * 64 + n % 64) (taken + 1) due 0x80 0xBF rest := by
  have within : (low ≤ UInt8.ofNat n && UInt8.ofNat n ≤ high) = true := by
    simp [UInt8.le_iff_toNat_le, toNat_ofNat n byte, above, below]
  rw [readTail, if_pos within, extend, toNat_ofNat n byte]

/-- A byte that goes on with a character is always taken after the second one. -/
theorem readTail_last (bits taken due : Nat) (rest : List UInt8) :
    readTail bits taken (due + 1) 0x80 0xBF (UInt8.ofNat (n % 64 + 128) :: rest) =
      readTail (bits * 64 + n % 64) (taken + 1) due 0x80 0xBF rest := by
  rw [readTail_next _ _ _ _ _ _ _ (by omega) (by simp) (by simp; omega)]
  congr 2
  omega

end Bytes

section Numbers

variable (v : Nat) (rest : List UInt8)

theorem not_lt_of_le (n : Nat) (byte : n < 256) (high : 128 ≤ n) : ¬ UInt8.ofNat n < 0x80 := by
  rw [UInt8.lt_iff_toNat_lt, toNat_ofNat n byte]
  exact Nat.not_lt.mpr high

theorem readHead_one (bound : v ≤ 127) :
    readHead (UInt8.ofNat v) rest = .char (Char.ofNat v) 1 := by
  have low : UInt8.ofNat v < 0x80 := by
    rw [UInt8.lt_iff_toNat_lt, toNat_ofNat v (by omega)]
    exact Nat.lt_succ_of_le bound
  rw [readHead, if_pos low, toNat_ofNat v (by omega)]

theorem readHead_two (low : 127 < v) (bound : v ≤ 2047) :
    readHead (UInt8.ofNat (v / 64 % 32 + 192)) (UInt8.ofNat (v % 64 + 128) :: rest) =
      .char (Char.ofNat v) 2 := by
  rw [readHead, if_neg (not_lt_of_le _ (by omega) (by omega)),
    continuation?_one _ (by omega) (by omega)]
  dsimp only
  rw [readTail_last, readTail, leadBits, toNat_ofNat _ (by omega)]
  congr 2
  omega

/-- The bounds of the second byte keep out what two bytes spell, and what is no character. -/
theorem readHead_three (low : 2047 < v) (bound : v ≤ 65535) (valid : v < 0xD800 ∨ 0xDFFF < v) :
    readHead (UInt8.ofNat (v / 4096 % 16 + 224))
        (UInt8.ofNat (v / 64 % 64 + 128) :: UInt8.ofNat (v % 64 + 128) :: rest) =
      .char (Char.ofNat v) 3 := by
  rw [readHead, if_neg (not_lt_of_le _ (by omega) (by omega)),
    continuation?_two _ (by omega) (by omega)]
  dsimp only
  have above : (if v / 4096 % 16 + 224 = 224 then (0xA0 : UInt8) else 0x80).toNat ≤
      v / 64 % 64 + 128 := by
    split
    · simp
      omega
    · simp
  have below : v / 64 % 64 + 128 ≤
      (if v / 4096 % 16 + 224 = 237 then (0x9F : UInt8) else 0xBF).toNat := by
    split <;> simp <;> omega
  rw [readTail_next _ _ _ _ _ _ _ (by omega) above below, readTail_last, readTail, leadBits,
    toNat_ofNat _ (by omega)]
  congr 2
  omega

/-- The bounds of the second byte keep out what three bytes spell, and what is no character. -/
theorem readHead_four (low : 65535 < v) (valid : v < 0x110000) :
    readHead (UInt8.ofNat (v / 262144 % 8 + 240))
        (UInt8.ofNat (v / 4096 % 64 + 128) :: UInt8.ofNat (v / 64 % 64 + 128) ::
          UInt8.ofNat (v % 64 + 128) :: rest) =
      .char (Char.ofNat v) 4 := by
  rw [readHead, if_neg (not_lt_of_le _ (by omega) (by omega)),
    continuation?_three _ (by omega) (by omega)]
  dsimp only
  have above : (if v / 262144 % 8 + 240 = 240 then (0x90 : UInt8) else 0x80).toNat ≤
      v / 4096 % 64 + 128 := by
    split
    · simp
      omega
    · simp
  have below : v / 4096 % 64 + 128 ≤
      (if v / 262144 % 8 + 240 = 244 then (0x8F : UInt8) else 0xBF).toNat := by
    split <;> simp <;> omega
  rw [readTail_next _ _ _ _ _ _ _ (by omega) above below, readTail_last, readTail_last, readTail,
    leadBits, toNat_ofNat _ (by omega)]
  · congr 2
    omega
  · omega
  · omega

end Numbers

/-- The bytes of a character are read as that character, whatever comes behind. -/
theorem readHead_utf8EncodeChar (c : Char) (rest : List UInt8) :
    ∃ b more, String.utf8EncodeChar c = b :: more ∧
      readHead b (more ++ rest) = .char c (more.length + 1) := by
  have valid : c.toNat < 0xD800 ∨ 0xDFFF < c.toNat ∧ c.toNat < 0x110000 := c.valid
  have code : c.val.toNat = c.toNat := rfl
  have same : Char.ofNat c.toNat = c := Char.ofNat_toNat c
  simp only [String.utf8EncodeChar, code]
  generalize c.toNat = v at valid same
  subst same
  split
  · next one => exact ⟨_, _, rfl, readHead_one v rest one⟩
  · next one =>
    split
    · next two => exact ⟨_, _, rfl, readHead_two v rest (by omega) two⟩
    · next two =>
      split
      · next three => exact ⟨_, _, rfl, readHead_three v rest (by omega) three (by omega)⟩
      · next three => exact ⟨_, _, rfl, readHead_four v rest (by omega) (by omega)⟩

/-- Bytes that were taken are passed over. -/
theorem piecesFrom_taken (position : Nat) (taken rest : List UInt8) :
    piecesFrom position taken.length (taken ++ rest) =
      piecesFrom (position + taken.length) 0 rest := by
  induction taken generalizing position with
  | nil => rfl
  | cons b more ih =>
    rw [List.length_cons, List.cons_append, piecesFrom, ih, Nat.add_right_comm, Nat.add_assoc]

theorem piecesFrom_utf8EncodeChar (position : Nat) (c : Char) (rest : List UInt8) :
    piecesFrom position 0 (String.utf8EncodeChar c ++ rest) =
      .char c :: piecesFrom (position + (String.utf8EncodeChar c).length) 0 rest := by
  obtain ⟨b, more, spelled, read⟩ := readHead_utf8EncodeChar c rest
  rw [spelled, List.cons_append, piecesFrom, read]
  dsimp only
  rw [Nat.add_sub_cancel, piecesFrom_taken, List.length_cons, Nat.add_right_comm, Nat.add_assoc]

theorem piecesFrom_flatMap (position : Nat) (cs : List Char) :
    piecesFrom position 0 (cs.flatMap String.utf8EncodeChar) = cs.map Piece.char := by
  induction cs generalizing position with
  | nil => rfl
  | cons c rest ih => rw [List.flatMap_cons, piecesFrom_utf8EncodeChar, ih, List.map_cons]

/-- The pieces of the bytes of a text are its characters. -/
theorem pieces_encode (s : String) : pieces (encode s).toList = s.toList.map Piece.char := by
  rw [toList_encode, pieces, piecesFrom_flatMap]

theorem collect_map_char (cs : List Char) : collect (cs.map Piece.char) = .ok cs := by
  induction cs with
  | nil => rfl
  | cons c rest ih => rw [List.map_cons, collect, ih]; rfl

/-- A text is read back from its bytes. -/
theorem decode_encode (s : String) : decode (encode s) = .ok s := by
  rw [decode, pieces_encode, collect_map_char]
  exact congrArg Except.ok String.ofList_toList

/-- In the bytes of a text there is nothing to replace. -/
theorem decodeReplacing_encode (s : String) : decodeReplacing (encode s) = s := by
  rw [decodeReplacing, pieces_encode, List.map_map]
  exact (congrArg String.ofList (List.map_id _)).trans String.ofList_toList

/-- In the bytes of a text there is nothing to leave out. -/
theorem decodeDropping_encode (s : String) : decodeDropping (encode s) = s := by
  rw [decodeDropping, pieces_encode, List.filterMap_map]
  exact (congrArg String.ofList List.filterMap_some).trans String.ofList_toList

end LintRun.Text.Utf8
