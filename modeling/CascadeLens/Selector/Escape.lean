import CascadeLens.Text.Quoted

/-! The spelling of names in selectors. -/

namespace CascadeLens.Selector

open Text

/-- A number in hexadecimal, in small letters and without leading zeros. -/
def hexText (value : Nat) : Text := Nat.toDigits 16 value

/-- Characters that stand for themselves in a name. -/
def isPlain (c : Char) : Bool := c.isAlphanum || c == '_' || c == '-' || 128 ≤ c.toNat

def escapeChar (c : Char) : Text := if isPlain c then [c] else ['\\', c]

/-- A name the way it is written in a selector. A digit may not come first, so it is written by
its code and a space. -/
def escape : Text → Text
  | [] => []
  | c :: rest =>
    (if isDigit c then '\\' :: hexText c.toNat ++ [' '] else escapeChar c)
      ++ rest.flatMap escapeChar

end CascadeLens.Selector
