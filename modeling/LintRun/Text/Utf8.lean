/-!
# UTF-8 as bytes and as text

`decode` reads bytes strictly and names the first fault by its position and kind.
`decodeReplacing` puts U+FFFD in place of each faulty run, `decodeDropping` leaves the run out.
A faulty run is the longest start of a well-formed sequence, or a single byte that starts none.
-/
namespace LintRun.Text.Utf8

inductive Reason where
  | invalidStart
  | invalidContinuation
  | unexpectedEnd
  deriving DecidableEq, Repr

/-- A run of bytes that is not a character: where it starts, its bytes, and what is wrong. -/
structure Fault where
  start : Nat
  bytes : List UInt8
  reason : Reason
  deriving DecidableEq, Repr

/-- How many continuation bytes a first byte asks for, with the bounds of the first of them. -/
def continuation? (b : UInt8) : Option (Nat × UInt8 × UInt8) :=
  if b < 0xC2 then none
  else if b < 0xE0 then some (1, 0x80, 0xBF)
  else if b == 0xE0 then some (2, 0xA0, 0xBF)
  else if b == 0xED then some (2, 0x80, 0x9F)
  else if b < 0xF0 then some (2, 0x80, 0xBF)
  else if b == 0xF0 then some (3, 0x90, 0xBF)
  else if b < 0xF4 then some (3, 0x80, 0xBF)
  else if b == 0xF4 then some (3, 0x80, 0x8F)
  else none

/-- What the first bytes of a text are: a character, or a faulty run. -/
inductive Head where
  | char (c : Char) (length : Nat)
  | fault (length : Nat) (reason : Reason)
  deriving DecidableEq, Repr

/-- The payload bits of a continuation byte, appended to those read so far. -/
def extend (bits : Nat) (b : UInt8) : Nat := bits * 64 + b.toNat % 64

/-- Reads the continuation bytes that are still due; `low` and `high` bound the next one. -/
def readTail (bits taken : Nat) : Nat → UInt8 → UInt8 → List UInt8 → Head
  | 0, _, _, _ => .char (Char.ofNat bits) taken
  | _ + 1, _, _, [] => .fault taken .unexpectedEnd
  | due + 1, low, high, b :: rest =>
    if low ≤ b && b ≤ high then readTail (extend bits b) (taken + 1) due 0x80 0xBF rest
    else .fault taken .invalidContinuation

/-- The payload bits of a first byte that asks for `due` continuation bytes. -/
def leadBits (due : Nat) (b : UInt8) : Nat :=
  match due with
  | 1 => b.toNat % 32
  | 2 => b.toNat % 16
  | _ => b.toNat % 8

/-- Reads one character, or one faulty run, from the byte `b` and those after it. -/
def readHead (b : UInt8) (rest : List UInt8) : Head :=
  if b < 0x80 then .char (Char.ofNat b.toNat) 1
  else
    match continuation? b with
    | none => .fault 1 .invalidStart
    | some (due, low, high) => readTail (leadBits due b) 1 due low high rest

/-- One piece of a byte text. -/
inductive Piece where
  | char (c : Char)
  | fault (f : Fault)
  deriving DecidableEq, Repr

/-- Cuts bytes into characters and faulty runs; `skip` counts bytes already taken by the last
piece. -/
def piecesFrom (position : Nat) : Nat → List UInt8 → List Piece
  | _, [] => []
  | skip + 1, _ :: rest => piecesFrom (position + 1) skip rest
  | 0, b :: rest =>
    match readHead b rest with
    | .char c length => .char c :: piecesFrom (position + 1) (length - 1) rest
    | .fault length reason =>
      .fault ⟨position, (b :: rest).take length, reason⟩
        :: piecesFrom (position + 1) (length - 1) rest

def pieces (bytes : List UInt8) : List Piece := piecesFrom 0 0 bytes

/-- The characters up to the first faulty run, or that run. -/
def collect : List Piece → Except Fault (List Char)
  | [] => .ok []
  | .char c :: rest => (collect rest).map (c :: ·)
  | .fault f :: _ => .error f

/-- The text that the bytes spell, or their first fault. -/
def decode (bytes : ByteArray) : Except Fault String :=
  (collect (pieces bytes.toList)).map String.ofList

/-- The text with U+FFFD in place of each faulty run. -/
def decodeReplacing (bytes : ByteArray) : String :=
  String.ofList ((pieces bytes.toList).map fun
    | .char c => c
    | .fault _ => '\ufffd')

def decodeDropping (bytes : ByteArray) : String :=
  String.ofList ((pieces bytes.toList).filterMap fun
    | .char c => some c
    | .fault _ => none)

def encode (s : String) : ByteArray := s.toUTF8

def Reason.message : Reason → String
  | .invalidStart => "invalid start byte"
  | .invalidContinuation => "invalid continuation byte"
  | .unexpectedEnd => "unexpected end of data"

def hexByte (b : UInt8) : String :=
  String.ofList [Nat.digitChar (b.toNat / 16), Nat.digitChar (b.toNat % 16)]

/-- A single bad byte is quoted with its position, a longer run by its first and last position. -/
def Fault.message (f : Fault) : String :=
  match f.bytes with
  | [b] => s!"'utf-8' codec can't decode byte 0x{hexByte b} in position {f.start}: "
      ++ f.reason.message
  | bs => s!"'utf-8' codec can't decode bytes in position {f.start}-"
      ++ s!"{f.start + bs.length - 1}: " ++ f.reason.message

end LintRun.Text.Utf8
