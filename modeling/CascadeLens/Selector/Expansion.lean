import CascadeLens.Text.Bracket
import CascadeLens.Text.Case

/-! A selector together with the arguments of its functions, so that names inside of them can be
found by reading on. -/

namespace CascadeLens.Selector

open Text

/-- What follows the opening parenthesis of a function whose arguments are selectors. -/
def functionAt? : Text → Option Text
  | ':' :: rest =>
    ["is(", "where(", "not(", "has("].findSome? fun word => dropWord? word.toList rest
  | _ => none

/-- The arguments of one function, trimmed. Without a closing bracket they extend to the end. -/
def argumentsOf (behind : Text) : Text :=
  match closingFrom 1 none false behind with
  | some length => trim (behind.take length)
  | none => trim behind

/-- The arguments of all functions of a selector that have some, in order of appearance, those of
nested functions included. -/
def arguments : Text → List Text
  | [] => []
  | c :: rest =>
    match functionAt? (c :: rest) with
    | some behind =>
      let inner := argumentsOf behind
      if inner.isEmpty then arguments rest else inner :: arguments rest
    | none => arguments rest

/-- A selector followed by the arguments of its functions. -/
def expand (s : Text) : Text := [' '].intercalate (s :: arguments s)

end CascadeLens.Selector
