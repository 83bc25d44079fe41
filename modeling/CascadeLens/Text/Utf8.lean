import CascadeLens.Text.Blank

/-! Text as bytes of UTF-8, and back. -/

namespace CascadeLens.Text

def encodeChar (c : Char) : List UInt8 := (String.singleton c).toUTF8.toList

def utf8 (s : Text) : List UInt8 := s.flatMap encodeChar

/-- How a byte may begin a character: the number of bytes that follow, the bits it carries
itself, and the range in which the next byte has to lie. The ranges rule out overlong forms,
surrogates and code points that are too large. -/
def leadByte? (byte : Nat) : Option (Nat × Nat × Nat × Nat) :=
  if 0xC2 ≤ byte && byte ≤ 0xDF then some (1, byte - 0xC0, 0x80, 0xBF)
  else if byte == 0xE0 then some (2, 0, 0xA0, 0xBF)
  else if byte == 0xED then some (2, 0xD, 0x80, 0x9F)
  else if 0xE1 ≤ byte && byte ≤ 0xEF then some (2, byte - 0xE0, 0x80, 0xBF)
  else if byte == 0xF0 then some (3, 0, 0x90, 0xBF)
  else if 0xF1 ≤ byte && byte ≤ 0xF3 then some (3, byte - 0xF0, 0x80, 0xBF)
  else if byte == 0xF4 then some (3, 4, 0x80, 0x8F)
  else none

/-- A character that has begun: the bits read, the bytes that are missing, and the range of
the next one. -/
structure Unfinished where
  bits : Nat
  missing : Nat
  low : Nat
  high : Nat

/-- Decodes bytes; `none` stands for a maximal part that is ill formed. -/
def decodeFrom : Option Unfinished → List UInt8 → List (Option Char)
  | none, [] => []
  | some _, [] => [none]
  | pending, next :: rest =>
    let byte := next.toNat
    let begin : List (Option Char) :=
      if byte < 0x80 then some (Char.ofNat byte) :: decodeFrom none rest
      else
        match leadByte? byte with
        | some (missing, bits, low, high) => decodeFrom (some ⟨bits, missing, low, high⟩) rest
        | none => none :: decodeFrom none rest
    match pending with
    | none => begin
    | some ⟨bits, missing, low, high⟩ =>
      if low ≤ byte && byte ≤ high then
        let bits := 64 * bits + (byte - 0x80)
        if missing ≤ 1 then some (Char.ofNat bits) :: decodeFrom none rest
        else decodeFrom (some ⟨bits, missing - 1, 0x80, 0xBF⟩) rest
      else none :: begin

/-- Each ill-formed part becomes one replacement character. -/
def ofUtf8Lossy (bytes : List UInt8) : Text := (decodeFrom none bytes).map (·.getD '\uFFFD')

/-- Only well-formed bytes are text. -/
def ofUtf8? (bytes : List UInt8) : Option Text := (decodeFrom none bytes).mapM id

/-- Each byte is the character of its own value. -/
def ofLatin1 (bytes : List UInt8) : Text := bytes.map fun byte => Char.ofNat byte.toNat

end CascadeLens.Text
