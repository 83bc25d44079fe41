import CascadeLens.Stylesheet.Rule
import CascadeLens.Text.Find
import CascadeLens.Text.Place

/-! Style blocks as they are found in a text, by their offsets, and the rules they stand for. -/

namespace CascadeLens

open Text

/-- A style block between two offsets of the text, with the declarations that stand directly in
it. -/
structure FoundBlock where
  selector : Text
  atRules : List AtRule
  start : Nat
  stop : Nat
  startLine : Nat
  endLine : Nat
  order : Nat
  declarations : List RawDeclaration
deriving Repr, DecidableEq

/-- A style block with the blocks nested in it. -/
inductive BlockTree where
  | node (block : FoundBlock) (children : List BlockTree)
deriving Repr

/-- A block that is kept as a whole, between two offsets of the text. -/
structure FoundAtBlock where
  name : Text
  params : Text
  atRules : List AtRule
  start : Nat
  stop : Nat
  startLine : Nat
  endLine : Nat
deriving Repr, DecidableEq

/-- All that is found in a text. -/
structure Findings where
  blocks : List BlockTree
  keyframes : List FoundAtBlock
  properties : List FoundAtBlock
  declarations : List RawDeclaration

/-- The body of a rule: its declarations one after the other. -/
def bodyOf (declarations : List RawDeclaration) : Text :=
  "; ".toList.intercalate (declarations.map (·.text))

def FoundBlock.style (source name : Text) (block : FoundBlock) : StyleBlock where
  selector := block.selector
  body := bodyOf block.declarations
  atRules := block.atRules
  source := name
  startLine := block.startLine
  endLine := block.endLine
  order := block.order
  text := slice source block.start block.stop

def FoundAtBlock.atBlock (source name : Text) (block : FoundAtBlock) : AtBlock where
  name := block.name
  params := block.params
  text := slice source block.start block.stop
  source := name
  startLine := block.startLine
  endLine := block.endLine
  atRules := block.atRules

mutual

/-- The rule of a block, and after it those of the blocks nested in it. -/
def BlockTree.rules (source name : Text) (outer : List StyleBlock) : BlockTree → List Rule
  | .node block children =>
    let own := block.style source name
    ⟨own, outer⟩ :: rulesOf source name (own :: outer) children

def rulesOf (source name : Text) (outer : List StyleBlock) : List BlockTree → List Rule
  | [] => []
  | tree :: rest => tree.rules source name outer ++ rulesOf source name outer rest

end

end CascadeLens
