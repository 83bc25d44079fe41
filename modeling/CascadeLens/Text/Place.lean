import CascadeLens.Text.Blank

/-! Places in a text and its lines. -/

namespace CascadeLens

/-- A place in a text: how many characters stand before it, and its line and column, both
counted from one. -/
structure Place where
  offset : Nat := 0
  line : Nat := 1
  column : Nat := 1
deriving Repr, DecidableEq

/-- The place behind a character that stands here. -/
def Place.after (here : Place) (c : Char) : Place :=
  if c == '\n' then ⟨here.offset + 1, here.line + 1, 1⟩
  else ⟨here.offset + 1, here.line, here.column + 1⟩

namespace Text

/-- Line ends of every kind become a line feed. -/
def unifyLineEnds : Text → Text
  | [] => []
  | '\r' :: '\n' :: rest => '\n' :: unifyLineEnds rest
  | '\r' :: rest => '\n' :: unifyLineEnds rest
  | c :: rest => c :: unifyLineEnds rest

/-- Characters that end a displayed line. -/
def endsLine (c : Char) : Bool :=
  let code := c.toNat
  (10 ≤ code && code ≤ 13) || (28 ≤ code && code ≤ 30) || code == 0x85 || code == 0x2028
    || code == 0x2029

/-- The lines of a text with the characters of a line already begun, in reverse. -/
def linesFrom (line : Text) : Text → List Text
  | [] => if line.isEmpty then [] else [line.reverse]
  | '\r' :: '\n' :: rest => line.reverse :: linesFrom [] rest
  | c :: rest =>
    if endsLine c then line.reverse :: linesFrom [] rest else linesFrom (c :: line) rest

/-- The lines of a text as they are displayed. A line end at the very end opens no further
line. -/
def lines (s : Text) : List Text := linesFrom [] s

end Text

end CascadeLens
