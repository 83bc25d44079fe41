import CascadeLens.Text.Bracket
import CascadeLens.Text.Case
import CascadeLens.Text.Find

/-! The declarations in the body of a rule. -/

namespace CascadeLens

open Text

structure Declaration where
  property : Text
  value : Text
  important : Bool
deriving Repr, DecidableEq

/-- Whether a name with two hyphens in front is meant. -/
def isCustom (name : Text) : Bool := beginsWith name "--".toList

/-- Whether a text is the name of a property: custom, or a letter or underscore behind at most one
hyphen. Variables and statements of preprocessors are not. -/
def isPropertyName : Text → Bool
  | '-' :: '-' :: rest => rest.all isNameChar
  | '-' :: c :: rest => (c.isAlpha || c == '_') && rest.all isNameChar
  | c :: rest => (c.isAlpha || c == '_') && rest.all isNameChar
  | [] => false

/-- The value in front of a flag that makes it important, if it ends with one. The flag may be
spaced and in any case. -/
def dropImportant? (value : Text) : Option Text :=
  match dropWord? "tnatropmi".toList (trimRight value).reverse with
  | none => none
  | some before =>
    match before.dropWhile isBlank with
    | '!' :: rest => some (trim rest.reverse)
    | _ => none

/-- One declaration, cut at its first colon. `none` if a side is missing or if the left side is
not the name of a property. Names are in lower case unless they are custom. -/
def Declaration.ofText? (s : Text) : Option Declaration :=
  match cut ':' s with
  | (_, none) => none
  | (before, some after) =>
    let name := trim before
    let value := trim after
    if value.isEmpty || !isPropertyName name then none
    else
      let property := if isCustom name then name else lower name
      match dropImportant? value with
      | none => some ⟨property, value, false⟩
      | some value => if value.isEmpty then none else some ⟨property, value, true⟩

/-- The declarations of a body, which semicolons outside brackets and quotes separate. -/
def declarationsOf (body : Text) : List Declaration :=
  (splitTopLevel ';' body).filterMap Declaration.ofText?

end CascadeLens
