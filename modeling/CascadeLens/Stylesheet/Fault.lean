import CascadeLens.Text.Place

/-! Why a text is not a stylesheet. -/

namespace CascadeLens

inductive FaultKind where
  | unclosedComment
  | unclosedString
  | unclosedInterpolation
  | unclosedBlock
  | unexpectedBrace
deriving Repr, DecidableEq

/-- A fault and where it is seen, by line and column counted from one. -/
structure Fault where
  kind : FaultKind
  line : Nat
  column : Nat
deriving Repr, DecidableEq

def FaultKind.text : FaultKind → String
  | .unclosedComment => "Unclosed comment"
  | .unclosedString => "Unclosed string"
  | .unclosedInterpolation => "Unclosed interpolation"
  | .unclosedBlock => "Unclosed block"
  | .unexpectedBrace => "Unexpected \x7d"

def Fault.message (fault : Fault) : String :=
  fault.kind.text ++ " (line " ++ toString fault.line ++ ", column " ++ toString fault.column ++ ")"

def Place.fault (place : Place) (kind : FaultKind) : Fault := ⟨kind, place.line, place.column⟩

end CascadeLens
