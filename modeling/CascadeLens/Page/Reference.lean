import CascadeLens.Page.EntityTable
import CascadeLens.Text.Find
import CascadeLens.Text.Letter

/-! Character references in text and attribute values. -/

namespace CascadeLens.Page

open Text

/-- The characters that a name stands for. -/
def entity? (name : Text) : Option Text :=
  let written := String.ofList name
  match entityCodes.findSome? fun group => group.lookup written with
  | some code => some [Char.ofNat code]
  | none =>
    (entityPairs.lookup written).map fun (first, second) => [Char.ofNat first, Char.ofNat second]

/-- The characters that a name without a semicolon stands for. -/
def bareEntity? (name : Text) : Option Text :=
  if bareEntities.contains (String.ofList name) then entity? name else none

/-- What the numbers of an old code page stand for. -/
def oldCodes : List (Nat × Nat) := [
  (0x00, 0xFFFD), (0x0D, 0x0D), (0x80, 0x20AC), (0x81, 0x81), (0x82, 0x201A), (0x83, 0x0192),
  (0x84, 0x201E), (0x85, 0x2026), (0x86, 0x2020), (0x87, 0x2021), (0x88, 0x02C6), (0x89, 0x2030),
  (0x8A, 0x0160), (0x8B, 0x2039), (0x8C, 0x0152), (0x8D, 0x8D), (0x8E, 0x017D), (0x8F, 0x8F),
  (0x90, 0x90), (0x91, 0x2018), (0x92, 0x2019), (0x93, 0x201C), (0x94, 0x201D), (0x95, 0x2022),
  (0x96, 0x2013), (0x97, 0x2014), (0x98, 0x02DC), (0x99, 0x2122), (0x9A, 0x0161), (0x9B, 0x203A),
  (0x9C, 0x0153), (0x9D, 0x9D), (0x9E, 0x017E), (0x9F, 0x0178)]

/-- Code points that stand for nothing. -/
def isNoCharacter (code : Nat) : Bool :=
  (1 ≤ code && code ≤ 8) || code == 0xB || (0xE ≤ code && code ≤ 0x1F) || code == 0x7F
    || (0xFDD0 ≤ code && code ≤ 0xFDEF) || code % 0x10000 == 0xFFFE || code % 0x10000 == 0xFFFF

/-- What a reference by number stands for. -/
def numbered (code : Nat) : Text :=
  match oldCodes.lookup code with
  | some meant => [Char.ofNat meant]
  | none =>
    if (0xD800 ≤ code && code ≤ 0xDFFF) || 0x10FFFF < code then ['\uFFFD']
    else if isNoCharacter code then []
    else [Char.ofNat code]

/-- What a reference by number stands for in text. Unlike in the values of attributes, only what
is no character at all is replaced. -/
def numberedInText (code : Nat) : Char :=
  if code == 0 then '\x00'
  else
    match oldCodes.lookup code with
    | some meant => Char.ofNat meant
    | none =>
      if (0xD800 ≤ code && code ≤ 0xDFFF) || 0x10FFFF < code then '\uFFFD' else Char.ofNat code

/-- The longest name without a semicolon, of at most so many characters and of two at least, that a
text begins with: what it stands for, and the rest. -/
def longestBare? (s : Text) : Nat → Option (Text × Text)
  | 0 => none
  | size + 1 =>
    if size == 0 then none
    else
      match bareEntity? (s.take (size + 1)) with
      | some found => some (found, s.drop (size + 1))
      | none => longestBare? s size

/-- What a reference by name stands for, with a semicolon behind it or not. A name that is not known
may begin with one that is. -/
def named (name : Text) (ended : Bool) : Text :=
  let written := if ended then name ++ [';'] else name
  match (if ended then entity? name else bareEntity? name) with
  | some found => found
  | none =>
    match longestBare? written (written.length - 1) with
    | some (found, rest) => found ++ rest
    | none => '&' :: written

def isNamePart (c : Char) : Bool :=
  !(c == '\t' || c == '\n' || c == '\x0c' || c == ' ' || c == '<' || c == '&' || c == '#'
    || c == ';')

/-- One if a semicolon comes next. -/
def semicolon : Text → Nat
  | ';' :: _ => 1
  | _ => 0

/-- What the reference behind an ampersand stands for, and its length there. -/
def reference? : Text → Option (Text × Nat)
  | '#' :: rest =>
    match rest with
    | 'x' :: more | 'X' :: more =>
      let digits := more.takeWhile isHexDigit
      if digits.isEmpty then none
      else
        some (numbered (hexNumber digits), 2 + digits.length + semicolon (more.drop digits.length))
    | _ =>
      let digits := rest.takeWhile Char.isDigit
      if digits.isEmpty then none
      else
        let length := 1 + digits.length + semicolon (rest.drop digits.length)
        some (numbered (decimalNumber digits), length)
  | s =>
    let name := (s.take 32).takeWhile isNamePart
    if name.isEmpty then none
    else
      let ended := semicolon (s.drop name.length)
      some (named name (ended == 1), name.length + ended)

/-- A text with what its references stand for. -/
def unescape : Text → Text
  | [] => []
  | c :: rest =>
    match (if c == '&' then reference? rest else none) with
    | some (found, length) => found ++ unescape (rest.drop length)
    | none => c :: unescape rest
termination_by s => s.length
decreasing_by all_goals simp only [List.length_cons, List.length_drop]; omega

end CascadeLens.Page
