import CascadeLens.Specificity
import CascadeLens.Stylesheet.Rule

/-! Selectors found to apply. -/

namespace CascadeLens

/-- A flattened selector that can match the target, why it does, and the rule it belongs to. -/
structure Match where
  selector : Text
  reasons : List Text
  rule : Rule
  specificity : Specificity := .zero
deriving Repr, DecidableEq

/-- A rule about the target as a component. It takes no part in the cascade of the target. -/
structure ShadowMatch where
  selector : Text
  reasons : List Text
  kinds : List Text
  rule : Rule
deriving Repr, DecidableEq

end CascadeLens
