import CascadeLens.Text.Case
import CascadeLens.Text.Find

/-! What an element looks like to a stylesheet. -/

namespace CascadeLens

open Text

/-- The names gathered from one element and the elements inside of it. Data attributes keep the
`data-` in front. -/
structure Identity where
  classes : List Text := []
  ids : List Text := []
  tag : Text := []
  dataAttributes : List Text := []
  parts : List Text := []
deriving Repr, DecidableEq

/-- Names trimmed, without blank ones and repetitions. -/
def namesOf (items : List Text) : List Text :=
  distinct ((items.map trim).filter (!·.isEmpty))

namespace Identity

def gather (classes ids : List Text) (tag : Text) (dataAttributes parts : List Text) : Identity :=
  ⟨namesOf classes, namesOf ids, lower (trim tag), namesOf dataAttributes, namesOf parts⟩

/-- Whether the element has a class or an id. -/
def hasSelectors (identity : Identity) : Bool :=
  !identity.classes.isEmpty || !identity.ids.isEmpty

/-- The opening tag in short, with three classes and one id at most. -/
def summary (identity : Identity) : Text :=
  let tag := if identity.tag.isEmpty then ['?'] else identity.tag
  let shown := [' '].intercalate (identity.classes.take 3)
  let more := if identity.classes.length > 3 then "...".toList else []
  let classPart :=
    if identity.classes.isEmpty then [] else " class=\"".toList ++ shown ++ more ++ ['"']
  let idPart :=
    match identity.ids with
    | [] => []
    | first :: _ => " id=\"".toList ++ first ++ ['"']
  '<' :: tag ++ classPart ++ idPart ++ ['>']

end Identity

end CascadeLens
