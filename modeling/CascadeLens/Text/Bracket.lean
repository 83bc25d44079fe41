import CascadeLens.Text.Blank

/-! Reading text with its round and square brackets, quotes and escapes: cutting at marks that
stand outside of them, and finding the bracket that closes another. -/

namespace CascadeLens.Text

def isQuote (c : Char) : Bool := c == '"' || c == '\''

def isOpener (c : Char) : Bool := c == '(' || c == '['

def isCloser (c : Char) : Bool := c == ')' || c == ']'

/-- Where a reader stands: the number of brackets open, the quote it is inside of, and whether
a backslash came just before. -/
structure Nest where
  depth : Nat := 0
  quote : Option Char := none
  escaped : Bool := false
deriving Repr, DecidableEq

namespace Nest

/-- Reads one character. A closing bracket with none open is passed over, and the two kinds of
bracket are not told apart. -/
def step (nest : Nest) (c : Char) : Nest :=
  if nest.escaped then { nest with escaped := false }
  else if c == '\\' then { nest with escaped := true }
  else
    match nest.quote with
    | some quote => if c == quote then { nest with quote := none } else nest
    | none =>
      if isQuote c then { nest with quote := some c }
      else if isOpener c then { nest with depth := nest.depth + 1 }
      else if isCloser c then { nest with depth := nest.depth - 1 }
      else nest

def read (nest : Nest) (s : Text) : Nest := s.foldl step nest

/-- Outside brackets, quotes and escapes. -/
def outside (nest : Nest) : Bool := nest.depth == 0 && nest.quote.isNone && !nest.escaped

/-- Whether a mark that comes next cuts the text. A character with a meaning of its own never
does. -/
def cutsAt (nest : Nest) (mark : Char → Bool) (c : Char) : Bool :=
  nest.outside && mark c && !(c == '\\' || isQuote c || isOpener c || isCloser c)

end Nest

/-- The raw pieces of a text between the marks outside brackets and quotes, with the characters
of a piece already begun, in reverse. -/
def topLevelFrom (mark : Char → Bool) (nest : Nest) (piece : Text) : Text → List Text
  | [] => [piece.reverse]
  | c :: rest =>
    if nest.cutsAt mark c then piece.reverse :: topLevelFrom mark nest [] rest
    else topLevelFrom mark (nest.step c) (c :: piece) rest

/-- The pieces of a text between the marks outside brackets and quotes, trimmed, without the
blank ones. -/
def splitTopLevelBy (mark : Char → Bool) (s : Text) : List Text :=
  ((topLevelFrom mark {} [] s).map trim).filter (!·.isEmpty)

def splitTopLevel (mark : Char) (s : Text) : List Text := splitTopLevelBy (· == mark) s

/-- The branches of a selector list. -/
def branches (s : Text) : List Text := splitTopLevel ',' s

/-- How far ahead the open brackets are closed. The balance goes below zero where a closing
bracket comes first, and a bracket closes only when it brings the balance to zero. -/
def closingFrom (balance : Int) (quote : Option Char) (escaped : Bool) : Text → Option Nat
  | [] => none
  | c :: rest =>
    if escaped then (closingFrom balance quote false rest).map (· + 1)
    else if c == '\\' then (closingFrom balance quote true rest).map (· + 1)
    else
      match quote with
      | some mark =>
        (closingFrom balance (if c == mark then none else quote) false rest).map (· + 1)
      | none =>
        if isQuote c then (closingFrom balance (some c) false rest).map (· + 1)
        else if isOpener c then (closingFrom (balance + 1) none false rest).map (· + 1)
        else if isCloser c then
          if balance - 1 == 0 then some 0
          else (closingFrom (balance - 1) none false rest).map (· + 1)
        else (closingFrom balance none false rest).map (· + 1)

/-- The offset of the bracket that closes the one at the given offset. -/
def findClosing (s : Text) (start : Nat) : Option Nat :=
  (closingFrom 0 none false (s.drop start)).map (· + start)

end CascadeLens.Text
