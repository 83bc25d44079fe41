import CascadeLens.Stylesheet.Dialect

/-! What a stylesheet consists of. -/

namespace CascadeLens

open Text

/-- One enclosing at-rule. -/
structure AtRule where
  name : Text
  params : Text := []
deriving Repr, DecidableEq

def AtRule.context (rule : AtRule) : Text :=
  '@' :: rule.name ++ (if rule.params.isEmpty then [] else ' ' :: rule.params)

/-- The enclosing at-rules in words, outermost first. -/
def contextOf (rules : List AtRule) : Option Text :=
  if rules.isEmpty then none else some ([' '].intercalate (rules.map AtRule.context))

/-- What one style rule says by itself. Its body holds its own declarations, and its text is all
of it with the rules nested inside. `reading` tells apart rules that come from two readings of one
stylesheet; everything else is as written. -/
structure StyleBlock where
  selector : Text
  body : Text := []
  atRules : List AtRule := []
  source : Text := "<string>".toList
  startLine : Nat := 0
  endLine : Nat := 0
  order : Nat := 0
  text : Text := []
  reading : Nat := 0
deriving Repr, DecidableEq

/-- A style rule with the style rules around it, innermost first. -/
structure Rule extends StyleBlock where
  outer : List StyleBlock := []
deriving Repr, DecidableEq

namespace Rule

def parent? (rule : Rule) : Option Rule :=
  match rule.outer with
  | [] => none
  | own :: outer => some ⟨own, outer⟩

def isNested (rule : Rule) : Bool := !rule.outer.isEmpty

def context (rule : Rule) : Option Text := contextOf rule.atRules

end Rule

/-- A block at-rule that is kept as a whole, such as an animation or a registered property. -/
structure AtBlock where
  name : Text
  params : Text
  text : Text
  source : Text
  startLine : Nat
  endLine : Nat
  atRules : List AtRule
deriving Repr, DecidableEq

def AtBlock.context (block : AtBlock) : Option Text := contextOf block.atRules

/-- A declaration as written, before it is split into property and value. -/
structure RawDeclaration where
  text : Text
  line : Nat
deriving Repr, DecidableEq

/-- A stylesheet: its rules in document order, the blocks kept as a whole, and the declarations
that stand in no rule. -/
structure Stylesheet where
  name : Text
  dialect : Dialect
  rules : List Rule
  keyframes : List AtBlock
  properties : List AtBlock
  declarations : List RawDeclaration
deriving Repr, DecidableEq

def Stylesheet.isEmpty (sheet : Stylesheet) : Bool :=
  sheet.rules.isEmpty && sheet.keyframes.isEmpty && sheet.properties.isEmpty
    && sheet.declarations.isEmpty

end CascadeLens
