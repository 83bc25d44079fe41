import CascadeLens.Selector.Tree
import CascadeLens.Specificity

/-! What a selector counts for. -/

namespace CascadeLens.Selector

open Text

/-- Pseudo-elements that may be written with one colon. -/
def isLegacyElement (name : Text) : Bool :=
  ["before", "after", "first-line", "first-letter"].any fun legacy => lower name == legacy.toList

def Simple.weight : Simple → Specificity
  | .typeName _ => .oneElement
  | .universal => .zero
  | .nesting => .zero
  | .idName _ => .oneId
  | .className _ => .oneClass
  | .attribute _ => .oneClass
  | .pseudoClass name => if isLegacyElement name then .oneElement else .oneClass
  | .pseudoElement _ => .oneElement
  | .pseudoFunction _ => .oneClass
  | .elementFunction _ => .oneElement

/-- What a function adds to its most specific argument, or makes of it. -/
def ListFunction.weigh (argument : Specificity) : ListFunction → Specificity
  | .anyOf => argument
  | .whereOf => .zero
  | .host => .oneClass + argument
  | .slotted => .oneElement + argument

mutual

def Item.weight : Item → Specificity
  | .simple part => part.weight
  | .combinator => .zero
  | .function name branches => name.weigh (Specificity.greatest (weights branches))

/-- A branch counts as the sum of its items. -/
def branchWeight : List Item → Specificity
  | [] => .zero
  | item :: rest => item.weight + branchWeight rest

def weights : List (List Item) → List Specificity
  | [] => []
  | branch :: rest => branchWeight branch :: weights rest

end

/-- The specificity of a selector list is that of its most specific branch. A text that is no
selector list counts for nothing. -/
def specificity (s : Text) : Specificity :=
  match parse? s with
  | some branches => Specificity.greatest (weights branches)
  | none => .zero

end CascadeLens.Selector
