import DefaultImports.Text.Quoted

/-! Writing text as UTF-8. A name on disk may have bytes that are not UTF-8, and each is taken for a
character of its own; a text with such a character cannot be written. -/
namespace DefaultImports.Utf8

/-- A block of 128 characters that stand for the bytes from 0x80 on, in their order. They are
private, so that they are neither letters nor blanks nor printable. -/
structure RawBlock where
  start : Nat
  start_ge : 0xE000 ≤ start
  last_le : start + 0x7F ≤ 0xF8FF
deriving DecidableEq, Repr

/-- The byte that a character stands for. -/
def RawBlock.byte? (b : RawBlock) (c : Char) : Option UInt8 :=
  if b.start ≤ c.toNat ∧ c.toNat ≤ b.start + 0x7F then
    some (0x80 + (c.toNat - b.start)).toUInt8
  else none

/-- The first stretch of a text that cannot be written: where it starts, the byte that its first
character stands for, and how many characters it has. -/
structure EncodeFault where
  position : Nat
  byte : UInt8
  size : Nat
deriving DecidableEq, Repr

/-- A byte is shown as the surrogate whose number ends in it. -/
def EncodeFault.message (f : EncodeFault) : String :=
  let place :=
    if f.size == 1 then
      "character '\\udc" ++ String.ofList (Text.hex 2 f.byte.toNat) ++ "' in position " ++
        toString f.position
    else
      "characters in position " ++ toString f.position ++ "-" ++ toString (f.position + f.size - 1)
  "'utf-8' codec can't encode " ++ place ++ ": surrogates not allowed"

/-- Looks for a stretch of raw bytes, from the offset `position` on. -/
def encodeFault? (raw? : Char → Option UInt8) : (position : Nat) → List Char → Option EncodeFault
  | _, [] => none
  | position, c :: rest =>
    match raw? c with
    | none => encodeFault? raw? (position + 1) rest
    | some byte => some ⟨position, byte, (rest.takeWhile (raw? · |>.isSome)).length + 1⟩

/-- The bytes of a text without raw bytes; otherwise the answer is the first stretch of them. -/
def encode (raw? : Char → Option UInt8) (text : String) : Except EncodeFault (List UInt8) :=
  match encodeFault? raw? 0 text.toList with
  | none => .ok text.toUTF8.toList
  | some fault => .error fault

end DefaultImports.Utf8
