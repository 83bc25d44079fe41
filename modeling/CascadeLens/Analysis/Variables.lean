import CascadeLens.Match
import CascadeLens.Text.Bracket
import CascadeLens.Text.Find
import CascadeLens.Text.Letter

/-! Variables: custom properties and variables of preprocessors that matched rules use, and where
they are defined. -/

namespace CascadeLens

open Text

/-- The rest behind an opening of `var` and the blanks after it. -/
def varArgument? (s : Text) : Option Text := (drop? "var(".toList s).map trimLeft

/-- The name characters behind two hyphens, with the hyphens. There is at least one. -/
def customName? : Text → Option Text
  | '-' :: '-' :: rest =>
    match rest.takeWhile isNameChar with
    | [] => none
    | name => some ('-' :: '-' :: name)
  | _ => none

/-- The name behind a dollar sign, with the sign. -/
def dollarName? : Text → Option Text
  | '$' :: c :: rest =>
    if c.isAlpha || c == '_' then some ('$' :: c :: rest.takeWhile isNameChar) else none
  | _ => none

/-- The custom properties that a value refers to. What is read as a name is not searched again. -/
def customNames : Text → List Text
  | [] => []
  | c :: rest =>
    match varArgument? (c :: rest) with
    | none => customNames rest
    | some argument =>
      match customName? argument with
      | none => customNames rest
      | some name => name :: customNames (rest.drop (rest.length - (argument.length - name.length)))
termination_by s => s.length
decreasing_by all_goals simp only [List.length_cons, List.length_drop]; omega

/-- The variables of a preprocessor in a value. -/
def dollarNames : Text → List Text
  | [] => []
  | c :: rest =>
    match dollarName? (c :: rest) with
    | none => dollarNames rest
    | some name => name :: dollarNames rest

/-- The variables that one declaration uses: those of either kind in its value. -/
def namesUsedIn (declaration : Text) : List Text :=
  match cut ':' declaration with
  | (_, none) => []
  | (_, some value) => customNames value ++ dollarNames value

/-- The variables that a body uses. -/
def namesUsed (body : Text) : List Text := (splitTopLevel ';' body).flatMap namesUsedIn

/-- The variables that matched rules use, in order of first use. -/
def variableUsages (found : List Match) : List Text :=
  distinct (found.flatMap fun item => namesUsed item.rule.body)

/-- A definition of a variable: its value, the selector of the rule it stands in, and its place. -/
structure VariableDefinition where
  value : Text
  context : Text
  source : Text
  line : Nat
deriving Repr, DecidableEq

/-- The name and value of the variable that a declaration defines, if it defines one. -/
def definitionIn? (declaration : Text) : Option (Text × Text) :=
  let declaration := trimLeft declaration
  match (dollarName? declaration).or (customName? declaration) with
  | none => none
  | some name =>
    match trimLeft (declaration.drop name.length) with
    | ':' :: value => if blank value then none else some (name, trim value)
    | _ => none

/-- All definitions of variables in a stylesheet: those outside of rules first. -/
def Stylesheet.definitions (sheet : Stylesheet) : List (Text × VariableDefinition) :=
  let outside := sheet.declarations.filterMap fun declaration =>
    (definitionIn? declaration.text).map fun (name, value) =>
      (name, ⟨value, "global".toList, sheet.name, declaration.line⟩)
  let inside := sheet.rules.flatMap fun rule =>
    (splitTopLevel ';' rule.body).filterMap fun declaration =>
      (definitionIn? declaration).map fun (name, value) =>
        (name, ⟨value, rule.selector, sheet.name, rule.startLine⟩)
  outside ++ inside

/-- A variable that a matched rule uses, with every definition of it. -/
structure VariableUsage where
  name : Text
  definitions : List VariableDefinition
deriving Repr, DecidableEq

/-- The variables that matched rules use, with their definitions in the given stylesheets. -/
def collectVariables (found : List Match) (sheets : List Stylesheet) : List VariableUsage :=
  let all := sheets.flatMap Stylesheet.definitions
  (variableUsages found).map fun name => ⟨name, (all.filter (·.1 == name)).map (·.2)⟩

end CascadeLens
