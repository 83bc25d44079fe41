import CascadeLens.Match
import CascadeLens.Stylesheet.Declaration
import CascadeLens.Text.Find

/-! The cascade: which declaration of a property wins. An important declaration beats one that is
not, then the more specific selector wins, then the stylesheet that is loaded later, then the later
rule, then the later declaration. -/

namespace CascadeLens

open Text

/-- Stylesheets with their ranks in load order. Those that the page links come first, and any other
follows in order of appearance. -/
def fileRanks (names order : List Text) : List (Text × Nat) :=
  (distinct (order ++ names)).zipIdx

def rankIn (ranks : List (Text × Nat)) (name : Text) : Nat := (ranks.lookup name).getD 0

/-- A declaration with its position in the body it stands in. -/
structure Placed where
  declaration : Declaration
  index : Nat
deriving Repr, DecidableEq

/-- Adds a declaration to those of other properties. A later one takes the place of an earlier one
of its property, unless only the earlier one is important. -/
def putDeclaration (kept : List Placed) (next : Placed) : List Placed :=
  match kept with
  | [] => [next]
  | first :: rest =>
    if first.declaration.property == next.declaration.property then
      if first.declaration.important && !next.declaration.important then first :: rest
      else next :: rest
    else first :: putDeclaration rest next

/-- The declarations of a body that can count, one for each property. -/
def effective (body : Text) : List Placed :=
  ((declarationsOf body).zipIdx.map fun (declaration, index) => ⟨declaration, index⟩).foldl
    putDeclaration []

/-- Adds a match to those of other rules. Of the matches of one rule the first of the most specific
ones stays. -/
def putMatch (kept : List Match) (next : Match) : List Match :=
  match kept with
  | [] => [next]
  | first :: rest =>
    if first.rule == next.rule then
      if Specificity.order first.specificity next.specificity == .lt then next :: rest
      else first :: rest
    else first :: putMatch rest next

def bestMatches (found : List Match) : List Match := found.foldl putMatch []

/-- A declaration that takes part in the cascade. -/
structure Candidate where
  declaration : Declaration
  source : Match
  fileRank : Nat
  ruleOrder : Nat
  index : Nat
deriving Repr, DecidableEq

def Candidate.order (a b : Candidate) : Ordering :=
  (compare a.declaration.important b.declaration.important).then <|
    (Specificity.order a.source.specificity b.source.specificity).then <|
      (compare a.fileRank b.fileRank).then <|
        (compare a.ruleOrder b.ruleOrder).then <| compare a.index b.index

/-- The candidates of all properties in the order of their rules. -/
def candidates (found : List Match) (linkOrder : List Text) : List Candidate :=
  let best := bestMatches found
  let ranks := fileRanks (best.map (·.rule.source)) linkOrder
  best.flatMap fun item =>
    (effective item.rule.body).map fun placed =>
      ⟨placed.declaration, item, rankIn ranks item.rule.source, item.rule.order, placed.index⟩

/-- Candidates by property, in the order in which properties first appear. -/
def byProperty (all : List Candidate) : List (Text × List Candidate) :=
  (distinct (all.map (·.declaration.property))).map fun property =>
    (property, all.filter (·.declaration.property == property))

def collectDeclarations (found : List Match) (linkOrder : List Text) :
    List (Text × List Candidate) :=
  byProperty (candidates found linkOrder)

/-- The decision on a property that several rules declare: the winner, and what it beats, the
closest competitor first. -/
structure Conflict where
  property : Text
  winner : Candidate
  losers : List Candidate
deriving Repr, DecidableEq

/-- Candidates from the highest rank to the lowest. Equal ranks keep their order. -/
def ranked (all : List Candidate) : List Candidate :=
  all.mergeSort fun a b => a.order b != .lt

def conflictOf? (property : Text) (all : List Candidate) : Option Conflict :=
  match ranked all with
  | winner :: loser :: losers => some ⟨property, winner, loser :: losers⟩
  | _ => none

def resolveConflicts (groups : List (Text × List Candidate)) : List Conflict :=
  groups.filterMap fun (property, all) => conflictOf? property all

end CascadeLens
