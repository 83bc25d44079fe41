import CascadeLens.Target.Identity

/-! Selectors for the parts and the slotted content of components. Both tests are by occurrence:
a part matches by its name or by any name of the target that stands somewhere in the selector, and
slotted content by a class that stands in the argument. -/

namespace CascadeLens

open Text

/-- The argument of the first call of a function in a text, which extends to the next closing
parenthesis and may not be empty. -/
def argument? (function : Text) : Text → Option Text
  | [] => none
  | c :: rest =>
    let here :=
      match dropWord? function (c :: rest) with
      | none => none
      | some behind =>
        let content := behind.takeWhile (· != ')')
        if content.isEmpty || behind.length == content.length then none else some content
    here.or (argument? function rest)

/-- Why a selector relates to the target as a component, and by which pseudo-elements. -/
structure ShadowRelation where
  reasons : List Text := []
  kinds : List Text := []
deriving Repr, DecidableEq

namespace Identity

def partReasons (identity : Identity) (selector : Text) : List Text :=
  match argument? "::part(".toList selector with
  | none => []
  | some argument =>
    let named := ((words argument).filter identity.parts.contains).map ("part: ".toList ++ ·)
    let hosts := (identity.classes ++ identity.ids ++ [identity.tag]).filter (!·.isEmpty)
    if hosts.any fun name => holds name selector then named ++ ["shadow-host with part".toList]
    else named

def slottedReasons (identity : Identity) (selector : Text) : List Text :=
  match argument? "::slotted(".toList selector with
  | none => []
  | some argument =>
    let inner := trim argument
    if identity.classes.any fun name => holds name inner then ["slotted: ".toList ++ inner] else []

def shadowRelation (identity : Identity) (selector : Text) : ShadowRelation :=
  let part := identity.partReasons selector
  let slotted := identity.slottedReasons selector
  ⟨part ++ slotted,
    (if part.isEmpty then [] else ["::part".toList])
      ++ (if slotted.isEmpty then [] else ["::slotted".toList])⟩

end Identity

end CascadeLens
