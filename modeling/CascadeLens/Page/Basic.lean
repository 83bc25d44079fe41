import CascadeLens.Page.Markup

/-! Pages: the elements of a document in document order. An element says which one it stands in by
position; the document itself comes first. -/

namespace CascadeLens

open Text Page

structure Element where
  name : Text
  attributes : List (Text × Text) := []
  /-- The position of the element around this one. -/
  parent : Nat := 0
deriving Repr, DecidableEq

namespace Element

def attribute? (element : Element) (name : Text) : Option Text := element.attributes.lookup name

/-- The words of an attribute, none without it. -/
def wordsOf (element : Element) (name : String) : List Text :=
  ((element.attribute? name.toList).map words).getD []

end Element

/-- The elements, and the strings that stand directly in them by position. A marked string is one of
a marked section. -/
structure Page where
  elements : Array Element
  strings : List (Nat × Text) := []
  marked : List Nat := []

namespace Page

/-- The name that the document itself goes by. -/
def documentName : Text := "[document]".toList

/-- Elements that hold nothing. -/
def isVoid (name : Text) : Bool :=
  ["area", "base", "br", "col", "embed", "hr", "img", "input", "keygen", "link", "menuitem", "meta",
    "param", "source", "track", "wbr", "basefont", "bgsound", "command", "frame", "image",
    "isindex", "nextid", "spacer"].any (·.toList == name)

/-- The blanks of markup. -/
def isSpace (c : Char) : Bool := c == ' ' || c == '\t' || c == '\n' || c == '\x0c' || c == '\r'

/-- Puts an attribute in. The last value of a name counts, at the place of the first. -/
def putAttribute (attributes : List (Text × Text)) (next : Text × Text) : List (Text × Text) :=
  match attributes with
  | [] => [next]
  | first :: rest => if first.1 == next.1 then next :: rest else first :: putAttribute rest next

/-- A page under construction: the page so far, the open elements from the inside out, and void
elements whose end tags, should they come, mean nothing. -/
structure Builder where
  page : Page := { elements := #[{ name := documentName }] }
  stack : List (Text × Nat) := []
  spent : List Text := []

namespace Builder

def top (builder : Builder) : Nat := (builder.stack.head?.map (·.2)).getD 0

/-- Closes up to the nearest open element of a name. Nothing happens if there is none. -/
def closeTo (builder : Builder) (name : Text) : Builder :=
  match builder.stack.dropWhile (·.1 != name) with
  | [] => builder
  | _ :: stack => { builder with stack }

/-- An end tag, also one that belongs to a void element before it. -/
def leave (builder : Builder) (name : Text) : Builder :=
  if builder.spent.contains name then { builder with spent := builder.spent.erase name }
  else builder.closeTo name

def enter (builder : Builder) (name : Text) (attributes : List (Text × Text)) : Builder :=
  let element : Element := ⟨name, attributes.foldl putAttribute [], builder.top⟩
  { builder with
    page := { builder.page with elements := builder.page.elements.push element }
    stack := (name, builder.page.elements.size) :: builder.stack }

/-- Blanks of markup by themselves are kept as one space, or as one line feed if there is one,
unless blanks are kept in an element around them. -/
def tidy (builder : Builder) (s : Text) : Text :=
  let keeps := builder.stack.any fun (name, _) => name == "pre".toList || name == "textarea".toList
  if keeps || s.isEmpty || !s.all isSpace then s else if s.contains '\n' then ['\n'] else [' ']

def add (builder : Builder) : Markup → Builder
  | .enter name attributes closed =>
    let inside := builder.enter name attributes
    if closed then inside.leave name
    else if isVoid name then { inside.closeTo name with spent := builder.spent ++ [name] }
    else inside
  | .leave name => builder.leave name
  | .text content =>
    { builder with page := { builder.page with
        strings := (builder.top, builder.tidy content) :: builder.page.strings } }
  | .marked =>
    { builder with page := { builder.page with marked := builder.top :: builder.page.marked } }

end Builder

/-- The page that markup makes. -/
def ofMarkup (markup : List Markup) : Page :=
  let page := (markup.foldl Builder.add {}).page
  { page with strings := page.strings.reverse }

/-- The page that a text makes, `none` if it is refused. -/
def parse? (s : Text) : Option Page := (markup? s).map ofMarkup

/-- The elements in document order with their positions, without the document itself. -/
def inOrder (page : Page) : List (Element × Nat) := page.elements.toList.zipIdx.drop 1

/-- The text directly in an element. -/
def textOf (page : Page) (position : Nat) : Text :=
  (page.strings.filter (·.1 == position)).flatMap (·.2)

/-- Whether the element at a position stands in another one. Positions grow inwards. -/
def isInside (page : Page) (outer : Nat) (inner : Nat) : Bool :=
  match inner with
  | 0 => false
  | inner + 1 =>
    let parent := (page.elements[inner + 1]?.map (·.parent)).getD 0
    if parent == outer then true
    else if _h : parent < inner + 1 then isInside page outer parent
    else false
termination_by inner

end Page

end CascadeLens
