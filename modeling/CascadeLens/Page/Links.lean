import CascadeLens.Page.Basic
import CascadeLens.Source

/-! The stylesheets of a page in the order in which they are loaded. -/

namespace CascadeLens.Page

open Text

def inlineName (number : Nat) : Text := "<style #".toList ++ (toString number).toList ++ ['>']

/-- Whether an element links a stylesheet. -/
def linksStylesheet (element : Element) : Bool :=
  (element.wordsOf "rel").any (fun word => lower word == "stylesheet".toList)
    && !((element.attribute? "href".toList).getD []).isEmpty

/-- What a link leads to. Addresses on the web stay as they are. Of others, query and fragment are
dropped, and they are read from the directory of the page if that is known. -/
def resolveHref (base : Option Path) (href : Text) : Text :=
  let href := trim href
  if isUrl href || beginsWith href "//".toList then href
  else
    let path := (cut '?' (cut '#' href).1).1.dropWhile (· == '/')
    match base with
    | none => path
    | some directory => (directory.join (Path.parse path)).normalize.text

/-- What an element loads: a linked stylesheet by its address, or an inline one. -/
inductive Load where
  | link (address : Text)
  | inline (position : Nat)
deriving Repr, DecidableEq

def loadOf? (base : Option Path) (element : Element) (position : Nat) : Option Load :=
  if element.name == "style".toList then some (.inline position)
  else if element.name == "link".toList && linksStylesheet element then
    some (.link (resolveHref base ((element.attribute? "href".toList).getD [])))
  else none

/-- Everything that a page loads, in document order. -/
def loads (page : Page) (base : Option Path) : List Load :=
  page.inOrder.filterMap fun (element, position) => loadOf? base element position

/-- The addresses of the linked stylesheets. -/
def links (page : Page) (base : Option Path) : List Text :=
  (page.inOrder.filter fun (element, _) =>
      element.name == "link".toList && linksStylesheet element).map
    fun (element, _) => resolveHref base ((element.attribute? "href".toList).getD [])

/-- The inline stylesheets, numbered from one. -/
def inlineStyles (page : Page) : List Source :=
  ((page.inOrder.filter fun (element, _) => element.name == "style".toList).zipIdx 1).map
    fun ((_, position), number) => ⟨inlineName number, page.textOf position, .css⟩

/-- Names of loads, with inline stylesheets numbered on from a count. -/
def namesFrom (count : Nat) : List Load → List Text
  | [] => []
  | .link address :: rest => address :: namesFrom count rest
  | .inline _ :: rest => inlineName (count + 1) :: namesFrom (count + 1) rest

/-- The names of linked and inline stylesheets in load order. -/
def loadOrder (page : Page) (base : Option Path) : List Text := namesFrom 0 (page.loads base)

end CascadeLens.Page
