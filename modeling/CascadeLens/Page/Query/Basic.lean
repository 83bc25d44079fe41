import CascadeLens.Page.Basic
import CascadeLens.Text.Case
import CascadeLens.Text.Find

/-! Queries: which elements of a page a selector picks. A query is a list of paths. A path leads
from an element over steps to others, and an element is picked if one of the paths can be gone from
it. -/

namespace CascadeLens.Page

open Text

/-- The ways from an element to others. -/
inductive Axis where
  | itself
  | ancestor
  | parent
  | earlier
  | previous
  | descendant
  | child
  | later
  | next
deriving Repr, DecidableEq

/-- How the value of an attribute is compared with another one. -/
inductive Comparison where
  | equals
  | hasWord
  /-- The value itself, or with a hyphen behind it. -/
  | hasRange
  | begins
  | ends
  | contains
deriving Repr, DecidableEq

/-- What a query asks of one element. -/
inductive Condition where
  | anything
  | never
  | typeName (name : Text)
  | idName (name : Text)
  | className (name : Text)
  | attribute (name : Text)
  | comparison (name : Text) (how : Comparison) (value : Text) (anyCase : Bool)
  | root
  | scope
  | empty
  /-- The element's place among those elements around it that are picked too is the offset or whole
  steps beyond it. -/
  | place (step offset : Int) (sameType fromEnd : Bool)
    (among : List (List (Axis × List Condition)))
  | anyOf (paths : List (List (Axis × List Condition)))
  | noneOf (paths : List (List (Axis × List Condition)))

abbrev QueryPath := List (Axis × List Condition)

/-- A text in lower case as far as it is ASCII. -/
def asciiLower (s : Text) : Text := s.map Char.toLower

/-- Whether a test holds of one of the ends of a text, the text itself and the empty one
included. -/
def anyEnd (test : Text → Bool) : Text → Bool
  | [] => test []
  | c :: rest => test (c :: rest) || anyEnd test rest

/-- Whether nothing follows, or a line feed at most. -/
def isOver (s : Text) : Bool := s.isEmpty || s == ['\n']

/-- Whether a text that follows a blank or not has a word. -/
def hasWordFrom (behind? : Text → Option Text) (begins : Bool) : Text → Bool
  | [] => false
  | c :: rest =>
    (begins && (behind? (c :: rest)).any fun behind => behind.head?.all isSpace)
      || hasWordFrom behind? (isSpace c) rest

/-- Whether a text compares with a value, in any case or not. -/
def Comparison.accepts (how : Comparison) (anyCase : Bool) (value s : Text) : Bool :=
  let behind? (s : Text) : Option Text := if anyCase then dropWord? value s else drop? value s
  match how with
  | .equals => (behind? s).any isOver
  | .hasWord => !value.isEmpty && !value.any isSpace && hasWordFrom behind? true s
  | .hasRange => (behind? s).any fun behind => isOver behind || behind.head? == some '-'
  | .begins => (behind? s).isSome
  | .ends => anyEnd (fun s => (behind? s).any isOver) s
  | .contains => anyEnd (fun s => (behind? s).isSome) s

/-- Attributes that are lists of words, by the elements that have them. -/
def isWordList (element : Element) (name : Text) : Bool :=
  let isOneOf (names : List String) : Bool := names.any (·.toList == name)
  isOneOf ["class", "accesskey", "dropzone"] ||
    match String.ofList element.name with
    | "a" | "link" => isOneOf ["rel", "rev"]
    | "td" | "th" => isOneOf ["headers"]
    | "form" => isOneOf ["accept-charset"]
    | "object" => isOneOf ["archive"]
    | "area" => isOneOf ["rel"]
    | "icon" => isOneOf ["sizes"]
    | "iframe" => isOneOf ["sandbox"]
    | "output" => isOneOf ["for"]
    | _ => false

/-- The value of an attribute as queries see it. The words of a list have one space between them. -/
def comparedValue? (element : Element) (name : Text) : Option Text :=
  (element.attributes.find? fun (written, _) => asciiLower written == asciiLower name).map
    fun (written, value) => if isWordList element written then spaced value else value

def parentOf? (page : Page) (position : Nat) : Option Nat :=
  if position == 0 then none else (page.elements[position]?).map (·.parent)

/-- The elements around an element from the inside out, the document itself last. -/
def ancestors (page : Page) (position : Nat) : List Nat :=
  match page.parentOf? position with
  | none => []
  | some parent => if _h : parent < position then parent :: ancestors page parent else []
termination_by position

def childrenOf (page : Page) (position : Nat) : List Nat :=
  (page.inOrder.filter (·.1.parent == position)).map (·.2)

/-- The elements in the same element, in order. The document has none beside it. -/
def siblings (page : Page) (position : Nat) : List Nat :=
  match page.parentOf? position with
  | none => [position]
  | some parent => page.childrenOf parent

/-- The elements that one way leads to. -/
def reach (page : Page) (position : Nat) : Axis → List Nat
  | .itself => [position]
  | .ancestor => page.ancestors position
  | .parent => (page.parentOf? position).toList
  | .earlier => (page.siblings position).filter (· < position)
  | .previous => (((page.siblings position).filter (· < position)).getLast?).toList
  | .descendant => (page.inOrder.map (·.2)).filter (page.isInside position)
  | .child => page.childrenOf position
  | .later => (page.siblings position).filter (position < ·)
  | .next => (((page.siblings position).filter (position < ·)).head?).toList

def nameAt (page : Page) (position : Nat) : Text :=
  asciiLower ((page.elements[position]?.map (·.name)).getD [])

/-- Whether something holds of the element at a position. -/
def holdsAt (page : Page) (position : Nat) (test : Element → Bool) : Bool :=
  page.elements[position]?.any test

/-- The first element of the document, or one in an inner frame, if there is nothing else beside it
but blanks. -/
def isRoot (page : Page) (position : Nat) : Bool :=
  match page.parentOf? position with
  | none => false
  | some parent =>
    (position == 1 || page.nameAt parent == "iframe".toList)
      && page.childrenOf parent == [position]
      && (page.strings.filter (·.1 == parent)).all (fun (_, content) => blank content)
      && !page.marked.contains parent

/-- Whether an element holds nothing but blanks. What an inner frame holds is not looked at. -/
def isEmpty (page : Page) (position : Nat) : Bool :=
  page.nameAt position == "iframe".toList
    || ((page.childrenOf position).isEmpty
      && (page.strings.filter (·.1 == position)).all fun (_, content) => content.all isSpace)

/-- Whether a place is an offset or whole steps beyond it. -/
def isOnGrid (step offset : Int) (place : Nat) : Bool :=
  let distance := (place : Int) - offset
  if step == 0 then distance == 0 else distance % step == 0 && 0 ≤ distance / step

/-- The place of a position in a list, counted from one at either end. -/
def placeIn (positions : List Nat) (fromEnd : Bool) (position : Nat) : Nat :=
  (if fromEnd then positions.reverse else positions).idxOf position + 1

mutual

def Condition.holds (page : Page) (position : Nat) : Condition → Bool
  | .anything => true
  | .never => false
  | .typeName name => page.nameAt position == asciiLower name
  | .idName name => page.holdsAt position (·.attribute? "id".toList == some name)
  | .className name => page.holdsAt position fun element => (element.wordsOf "class").contains name
  | .attribute name => page.holdsAt position fun element => (comparedValue? element name).isSome
  | .comparison name how value anyCase =>
    page.holdsAt position fun element =>
      (comparedValue? element name).any (how.accepts anyCase value)
  | .root => page.isRoot position
  | .scope => position == 1
  | .empty => page.isEmpty position
  | .place step offset sameType fromEnd among =>
    let picked (other : Nat) : Bool := among.isEmpty || leadsOneOf page other among
    let peers := (page.siblings position).filter fun other =>
      (!sameType || page.nameAt other == page.nameAt position) && picked other
    picked position && isOnGrid step offset (placeIn peers fromEnd position)
  | .anyOf paths => leadsOneOf page position paths
  | .noneOf paths => !leadsOneOf page position paths

def allHold (page : Page) (position : Nat) : List Condition → Bool
  | [] => true
  | condition :: rest => condition.holds page position && allHold page position rest

/-- Whether a path can be gone from an element. -/
def leads (page : Page) (position : Nat) : List (Axis × List Condition) → Bool
  | [] => true
  | (axis, conditions) :: rest =>
    (page.reach position axis).any fun other =>
      allHold page other conditions && leads page other rest

def leadsOneOf (page : Page) (position : Nat) : List (List (Axis × List Condition)) → Bool
  | [] => false
  | path :: rest => leads page position path || leadsOneOf page position rest

end

/-- The positions of the elements that a query picks, in document order. -/
def select (page : Page) (query : List QueryPath) : List Nat :=
  (page.inOrder.map (·.2)).filter fun position => page.leadsOneOf position query

end CascadeLens.Page
