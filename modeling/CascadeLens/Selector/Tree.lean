import CascadeLens.Selector.Token

/-! Selector lists as trees. White space never changes what a selector counts for, so a branch
is a flat run of simple selectors, functions and combinators. -/

namespace CascadeLens.Selector

inductive Item where
  | simple (part : Simple)
  | combinator
  | function (name : ListFunction) (branches : List (List Item))
deriving Repr

abbrev Branch := List Item

/-- A list of items being read. The items of the branch begun and the branches before it are in
reverse. -/
structure Unfinished where
  items : Branch := []
  branches : List Branch := []

namespace Unfinished

def push (list : Unfinished) (item : Item) : Unfinished := { list with items := item :: list.items }

/-- Ends the branch begun. A branch has at least one item. -/
def endBranch? (list : Unfinished) : Option Unfinished :=
  if list.items.isEmpty then none else some ⟨[], list.items.reverse :: list.branches⟩

/-- Ends the list. -/
def finish? (list : Unfinished) : Option (List Branch) :=
  list.endBranch?.map fun ended => ended.branches.reverse

end Unfinished

/-- A reader of tokens: the list it is in, and the functions around it with the lists that hold
them, innermost first. -/
structure Reader where
  list : Unfinished := {}
  outer : List (ListFunction × Unfinished) := []

def Reader.step? (reader : Reader) : Token → Option Reader
  | .simple part => some { reader with list := reader.list.push (.simple part) }
  | .combinator => some { reader with list := reader.list.push .combinator }
  | .enter function => some ⟨{}, (function, reader.list) :: reader.outer⟩
  | .comma => reader.list.endBranch?.map fun list => { reader with list }
  | .close =>
    match reader.outer with
    | [] => none
    | (function, list) :: outer =>
      reader.list.finish?.map fun branches => ⟨list.push (.function function branches), outer⟩

/-- The branches of the selector list that the tokens spell. -/
def ofTokens? (tokens : List Token) : Option (List Branch) :=
  match tokens.foldlM Reader.step? {} with
  | some ⟨list, []⟩ => list.finish?
  | _ => none

/-- The branches of the selector list that a text spells, `none` if it is not one. Nothing but
blanks is no list, even where one of them could begin a name. -/
def parse? (s : Text) : Option (List Branch) :=
  if Text.blank s then none else (tokens? s).bind ofTokens?

end CascadeLens.Selector
