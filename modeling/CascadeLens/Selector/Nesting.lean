import CascadeLens.Selector.Expansion
import CascadeLens.Stylesheet.Rule
import CascadeLens.Text.Find

/-! Flattening nested rules into selectors that need no nesting. A list of branches on either side
fans out, and the branches of the parent come first. -/

namespace CascadeLens

open Text

/-- The branches of a selector, or the selector itself if it has none. -/
def branchesOr (fallback : Text → Text) (s : Text) : List Text :=
  match branches s with
  | [] => [fallback s]
  | found => found

/-- A nested branch under one branch of its parent. -/
def nest (parent child : Text) : Text :=
  if child.contains '&' then replace '&' parent child else parent ++ ' ' :: child

/-- A selector that is not nested. The sign for the parent stands for the scoping root there. -/
def atRoot (selector : Text) : Text := replace '&' ":scope".toList selector

/-- The selectors of a nested rule under those of its parent. -/
def fanOut (parents : List Text) (selector : Text) : List Text :=
  (parents.flatMap (branchesOr id)).flatMap fun parent =>
    (branchesOr trim selector).map (nest parent)

/-- The selectors that a rule stands for. -/
def variants (own : StyleBlock) : List StyleBlock → List Text
  | [] => [atRoot own.selector]
  | parent :: outer => fanOut (variants parent outer) own.selector

def Rule.variants (rule : Rule) : List Text := CascadeLens.variants rule.toStyleBlock rule.outer

/-- A flattened selector, and its form with the arguments of its functions behind it. -/
structure Resolved where
  text : Text
  expanded : Text
deriving Repr, DecidableEq

def Resolved.ofText (text : Text) : Resolved := ⟨text, Selector.expand text⟩

/-- A resolver remembers the selectors of the rules it has seen, and the rules that fanned out
into more selectors than its bound allows. -/
structure Resolver where
  bound : Int := 8
  known : List (Rule × List Text) := []
  warnings : List (Rule × Nat) := []

namespace Resolver

def lookup (known : List (Rule × List Text)) (rule : Rule) : Option (List Text) :=
  (known.find? (·.1 == rule)).map (·.2)

/-- The selectors of a rule, with all that is known afterwards. -/
def variants (known : List (Rule × List Text)) (own : StyleBlock) :
    List StyleBlock → List Text × List (Rule × List Text)
  | [] =>
    match lookup known ⟨own, []⟩ with
    | some found => (found, known)
    | none =>
      let result := [atRoot own.selector]
      (result, (⟨own, []⟩, result) :: known)
  | parent :: outer =>
    match lookup known ⟨own, parent :: outer⟩ with
    | some found => (found, known)
    | none =>
      let (parents, known) := variants known parent outer
      let result := fanOut parents own.selector
      (result, (⟨own, parent :: outer⟩, result) :: known)

def resolve (resolver : Resolver) (rule : Rule) : List Resolved × Resolver :=
  let (texts, known) := variants resolver.known rule.toStyleBlock rule.outer
  let warnings :=
    if resolver.bound < texts.length then resolver.warnings ++ [(rule, texts.length)]
    else resolver.warnings
  (texts.map Resolved.ofText, { resolver with known, warnings })

def clear (resolver : Resolver) : Resolver := { resolver with known := [], warnings := [] }

end Resolver

end CascadeLens
