import CascadeLens.Selector.Escape
import CascadeLens.Selector.Expansion
import CascadeLens.Target.Identity

/-! Whether a selector can apply to the target, and why. Matching is textual: a selector matches
when a name of the target stands in it as a whole. -/

namespace CascadeLens

open Text

/-- Whether a name that ends here is not continued. -/
def endsName : Text → Bool
  | [] => true
  | c :: _ => isBlank c || c ∈ [',', ':', '.', '[', '#', '>', '+', '~', ')']

/-- Whether an element name may follow a character. -/
def opensTag (c : Char) : Bool := isBlank c || c ∈ [',', '>', '+', '~', '(']

/-- Whether a text begins with a name as a whole, written plainly or escaped. -/
def beginsName (name s : Text) : Bool :=
  [name, Selector.escape name].any fun form => (drop? form s).any endsName

/-- Whether a name stands somewhere behind a mark. -/
def hasMarked (mark : Char) (name : Text) : Text → Bool
  | [] => false
  | c :: rest => (c == mark && beginsName name rest) || hasMarked mark name rest

def beginsTag (tag s : Text) : Bool := (dropWord? tag s).any endsName

/-- Whether an element name stands somewhere in what follows the start of a text. -/
def hasTagBehind (tag : Text) : Text → Bool
  | [] => false
  | c :: rest => (opensTag c && beginsTag tag rest) || hasTagBehind tag rest

def hasTag (tag s : Text) : Bool := beginsTag tag s || hasTagBehind tag s

/-- Whether the test of an attribute continues here: a closing bracket, or an equals sign with at
most one sign in front. -/
def continuesAttribute : Text → Bool
  | ']' :: _ => true
  | '=' :: _ => true
  | c :: '=' :: _ => c ∈ ['~', '|', '^', '$', '*']
  | _ => false

/-- Whether a test of the attribute stands somewhere in a text. -/
def hasAttribute (name : Text) : Text → Bool
  | [] => false
  | c :: rest =>
    (c == '['
      && (dropWord? name (trimLeft rest)).any fun behind => continuesAttribute (trimLeft behind))
      || hasAttribute name rest

/-- One thing to look for. -/
inductive Feature where
  | className (name : Text)
  | idName (name : Text)
  | tag (name : Text)
  | dataAttribute (name : Text)
deriving Repr, DecidableEq

namespace Feature

/-- Why a selector matches that shows the feature. -/
def reason : Feature → Text
  | className name => "class: ".toList ++ name
  | idName name => "id: ".toList ++ name
  | tag name => "tag: ".toList ++ name
  | dataAttribute name => "data-attr: ".toList ++ name

def foundIn (s : Text) : Feature → Bool
  | className name => hasMarked '.' name s
  | idName name => hasMarked '#' name s
  | tag name => hasTag name s
  | dataAttribute name => hasAttribute name s

end Feature

namespace Identity

/-- The features of a target. Its element name alone would match nearly every rule, so it counts
only beside a class or an id. -/
def features (identity : Identity) : List Feature :=
  identity.classes.map .className ++ identity.ids.map .idName
    ++ (if identity.tag.isEmpty || !identity.hasSelectors then [] else [.tag identity.tag])
    ++ identity.dataAttributes.map .dataAttribute

/-- The reasons for which a selector with the given expanded form matches. -/
def reasonsIn (identity : Identity) (selector expanded : Text) : List Text :=
  if blank selector then []
  else
    distinct ((identity.features.filter fun feature =>
      feature.foundIn selector || feature.foundIn expanded).map Feature.reason)

/-- The reasons for which a selector matches. It matches if there is one. -/
def reasons (identity : Identity) (selector : Text) : List Text :=
  identity.reasonsIn selector (Selector.expand selector)

/-- The branches of a selector list that match. -/
def matchingBranches (identity : Identity) (selector : Text) : List Text :=
  (branches selector).filter fun branch => !(identity.reasons branch).isEmpty

end Identity

end CascadeLens
