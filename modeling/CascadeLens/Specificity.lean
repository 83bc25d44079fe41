import CascadeLens.Text.Blank

/-! Specificity: how strongly a selector speaks for its declarations. -/

namespace CascadeLens

/-- Counts from the most to the least significant: inline styles, ids, classes (with attributes
and pseudo-classes), and element names (with pseudo-elements). -/
structure Specificity where
  inline : Int := 0
  ids : Int := 0
  classes : Int := 0
  elements : Int := 0
deriving Repr, DecidableEq

namespace Specificity

def zero : Specificity := {}

def oneId : Specificity := { ids := 1 }

def oneClass : Specificity := { classes := 1 }

def oneElement : Specificity := { elements := 1 }

instance : Add Specificity where
  add a b :=
    ⟨a.inline + b.inline, a.ids + b.ids, a.classes + b.classes, a.elements + b.elements⟩

/-- The most significant count that differs decides. -/
def order (a b : Specificity) : Ordering :=
  (compare a.inline b.inline).then <| (compare a.ids b.ids).then <|
    (compare a.classes b.classes).then <| compare a.elements b.elements

/-- The first of two unless the second is greater. -/
def larger (a b : Specificity) : Specificity := if order a b == .lt then b else a

/-- The greatest of a list, and zero of an empty one. -/
def greatest : List Specificity → Specificity
  | [] => zero
  | first :: rest => rest.foldl larger first

def text (s : Specificity) : String :=
  "(" ++ ",".intercalate ([s.inline, s.ids, s.classes, s.elements].map toString) ++ ")"

end Specificity

end CascadeLens
