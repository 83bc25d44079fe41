/-! Text is a list of characters. This module holds the white space rules that every reader
shares: which characters are blank, trimming, and cutting into words. -/

namespace CascadeLens

abbrev Text := List Char

namespace Text

/-- White space of Unicode together with the four ASCII separators. A zero-width space and a
byte order mark are not blank. -/
def isBlank (c : Char) : Bool :=
  let code := c.toNat
  (9 ≤ code && code ≤ 13) || (28 ≤ code && code ≤ 32) || code == 0x85 || code == 0xA0
    || code == 0x1680 || (0x2000 ≤ code && code ≤ 0x200A) || code == 0x2028 || code == 0x2029
    || code == 0x202F || code == 0x205F || code == 0x3000

def trimLeft (s : Text) : Text := s.dropWhile isBlank

def trimRight (s : Text) : Text := (s.reverse.dropWhile isBlank).reverse

def trim (s : Text) : Text := trimRight (trimLeft s)

/-- Whether nothing is left of a text after trimming. -/
def blank (s : Text) : Bool := s.all isBlank

/-- The words of a text with the characters of a word already begun, in reverse. -/
def wordsFrom (word : Text) : Text → List Text
  | [] => if word.isEmpty then [] else [word.reverse]
  | c :: rest =>
    if isBlank c then
      if word.isEmpty then wordsFrom [] rest else word.reverse :: wordsFrom [] rest
    else wordsFrom (c :: word) rest

/-- The maximal runs of characters that are not blank. -/
def words (s : Text) : List Text := wordsFrom [] s

/-- The words of a text with one space between them. -/
def spaced (s : Text) : Text := [' '].intercalate (words s)

end Text

end CascadeLens
