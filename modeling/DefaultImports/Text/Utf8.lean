import DefaultImports.Text.Quoted

/-! Reading bytes as UTF-8, with a replacement character for what is malformed or with the
first fault as the answer. -/
namespace DefaultImports.Utf8

inductive Reason where
  | badStart
  | badContinuation
  | truncated
deriving DecidableEq, Repr

def Reason.message : Reason → String
  | .badStart => "invalid start byte"
  | .badContinuation => "invalid continuation byte"
  | .truncated => "unexpected end of data"

/-- One unit of decoding: a character, or a longest malformed stretch of `size` bytes. -/
inductive Piece where
  | char (c : Char) (size : Nat)
  | bad (size : Nat) (reason : Reason)
deriving DecidableEq, Repr

def Piece.size : Piece → Nat
  | .char _ n | .bad n _ => n

def isContinuation (b : UInt8) : Bool := 0x80 ≤ b && b ≤ 0xBF

/-- The second bytes that may follow the start `b`: they rule out overlong forms, surrogates
and numbers above U+10FFFF. -/
def isSecond (b c : UInt8) : Bool :=
  (if b == 0xE0 then 0xA0 else if b == 0xF0 then 0x90 else 0x80) ≤ c &&
    c ≤ (if b == 0xED then 0x9F else if b == 0xF4 then 0x8F else 0xBF)

/-- How many bytes follow the start `b`, for a start of more than one byte. -/
def followers? (b : UInt8) : Option Nat :=
  if b < 0xC2 then none
  else if b < 0xE0 then some 1
  else if b < 0xF0 then some 2
  else if b < 0xF5 then some 3
  else none

/-- Reads `n` continuation bytes onto the code point `acc`; `size` bytes are read already. -/
def continuation : (n acc size : Nat) → List UInt8 → Piece
  | 0, acc, size, _ => .char (Char.ofNat acc) size
  | _ + 1, _, size, [] => .bad size .truncated
  | n + 1, acc, size, b :: rest =>
    if isContinuation b then continuation n (acc * 64 + b.toNat % 64) (size + 1) rest
    else .bad size .badContinuation

/-- The first piece of `b :: rest`. -/
def firstPiece (b : UInt8) (rest : List UInt8) : Piece :=
  if b < 0x80 then .char (Char.ofNat b.toNat) 1
  else match followers? b with
    | none => .bad 1 .badStart
    | some n =>
      match rest with
      | [] => .bad 1 .truncated
      | c :: rest =>
        if isSecond b c then
          continuation (n - 1) (b.toNat % Nat.pow 2 (6 - n) * 64 + c.toNat % 64) 2 rest
        else .bad 1 .badContinuation

/-- The pieces of a byte string; `skip` bytes at its front belong to the piece before. -/
def piecesFrom : (skip : Nat) → List UInt8 → List Piece
  | _, [] => []
  | skip + 1, _ :: rest => piecesFrom skip rest
  | 0, b :: rest =>
    let piece := firstPiece b rest
    piece :: piecesFrom (piece.size - 1) rest

def pieces (bytes : List UInt8) : List Piece := piecesFrom 0 bytes

def replacement : Char := Char.ofNat 0xFFFD

/-- Decodes any bytes; each malformed stretch reads as one replacement character. -/
def decodeLossy (bytes : List UInt8) : List Char :=
  (pieces bytes).map fun
    | .char c _ => c
    | .bad _ _ => replacement

/-- A malformed stretch: where it starts, its first byte and length, and what is wrong. -/
structure Fault where
  position : Nat
  byte : UInt8
  size : Nat
  reason : Reason
deriving DecidableEq, Repr

def Fault.message (f : Fault) : String :=
  let place :=
    if f.size == 1 then
      "byte 0x" ++ String.ofList (Text.hex 2 f.byte.toNat) ++ " in position " ++ toString f.position
    else
      "bytes in position " ++ toString f.position ++ "-" ++ toString (f.position + f.size - 1)
  "'utf-8' codec can't decode " ++ place ++ ": " ++ f.reason.message

/-- Decodes well-formed bytes, from the offset `position` on. -/
def decodePieces (bytes : List UInt8) : (position : Nat) → List Piece → Except Fault (List Char)
  | _, [] => .ok []
  | position, .char c size :: rest => do
    return c :: (← decodePieces bytes (position + size) rest)
  | position, .bad size reason :: _ =>
    .error ⟨position, bytes.getD position 0, size, reason⟩

/-- Decodes well-formed bytes; otherwise the answer is the first fault. -/
def decode (bytes : List UInt8) : Except Fault (List Char) :=
  decodePieces bytes 0 (pieces bytes)

end DefaultImports.Utf8
