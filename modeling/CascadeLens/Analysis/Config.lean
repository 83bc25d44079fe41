import CascadeLens.Text.Blank

/-! Settings of an analysis. -/

namespace CascadeLens

/-- The settings that the result of a single stylesheet depends on. -/
structure FileSettings where
  includeShadow : Bool := true
  /-- The number of selectors a nested rule may fan out into without a warning. -/
  fanOutBound : Int := 8
  skipMinified : Bool := false
deriving Repr, DecidableEq

structure Config extends FileSettings where
  useCache : Bool := true
  cacheSize : Nat := 50
  workers : Nat := 1
  /-- Patterns of classes that are never missed, as written. -/
  furtherConventions : List Text := []
deriving Repr, DecidableEq

end CascadeLens
