import CascadeLens.Text.Blank

/-! Findings about the inputs of an analysis that do not stop it. -/

namespace CascadeLens

inductive Severity where
  | error
  | warning
  | info
deriving Repr, DecidableEq

def Severity.text : Severity → String
  | .error => "ERROR"
  | .warning => "WARNING"
  | .info => "INFO"

structure Diagnostic where
  code : String
  severity : Severity
  message : Text
  source : Option Text := none
  line : Option Int := none
deriving Repr, DecidableEq

/-- A diagnostic in a line. A line number counts only with the name of a stylesheet. -/
def Diagnostic.text (diagnostic : Diagnostic) : Text :=
  let location : Text :=
    match diagnostic.source with
    | none | some [] => []
    | some source =>
      match diagnostic.line with
      | none | some 0 => " [".toList ++ source ++ [']']
      | some line => " [".toList ++ source ++ ':' :: (toString line).toList ++ [']']
  diagnostic.severity.text.toList ++ location ++ ": ".toList ++ diagnostic.message

end CascadeLens
