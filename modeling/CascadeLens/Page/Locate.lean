import CascadeLens.Page.Query.Reader
import CascadeLens.Target.Identity
import CascadeLens.Text.Quoted

/-! Locating the element that an analysis is about, by a selector or by lines of the text, and what
it looks like to stylesheets. -/

namespace CascadeLens

open Text Page

/-- Why no element is located. -/
inductive LocateFault where
  | badRange (range : Text)
  | rangeBeforeFirstLine (range : Text)
  | rangeReversed (first last : Nat)
  | rangePastEnd (last total : Nat)
  /-- The element is one of the whole page. -/
  | wholePage (selector : Text) (reason : String)
  | invalidSelector (selector : Text)
  /-- Nothing matches; other selectors are suggested. -/
  | notFound (selector : Text) (suggestions : List Text)
  /-- The selector asks for something that is no element. -/
  | unsupportedSelector
  /-- The text is not taken for a page. -/
  | refusedPage
  | bothGiven
  | noneGiven
  /-- Lines are asked for where the text is not known. -/
  | textNotKnown
deriving Repr, DecidableEq

def LocateFault.message : LocateFault → Text
  | .badRange range =>
    "Invalid line range ".toList ++ quoted range ++ "; use a format like 45-80".toList
  | .rangeBeforeFirstLine range => "Line numbers must be positive, got ".toList ++ quoted range
  | .rangeReversed first last =>
    ("Start line " ++ toString first ++ " is after end line " ++ toString last).toList
  | .rangePastEnd last total =>
    ("End line " ++ toString last ++ " is past the end of the document (" ++ toString total
      ++ " lines)").toList
  | .wholePage selector reason =>
    "Cannot analyze ".toList ++ quoted selector ++ " as a component. ".toList ++ reason.toList
  | .invalidSelector selector => "Invalid selector ".toList ++ quoted selector
  | .notFound selector suggestions =>
    "No element matches selector ".toList ++ quoted selector
      ++ (if suggestions.isEmpty then []
        else ". Did you mean: ".toList ++ ", ".toList.intercalate suggestions)
  | .unsupportedSelector => "Pseudo-elements and rules select no elements".toList
  | .refusedPage => "The text is not taken for a page".toList
  | .bothGiven => "Pass either a selector or a line range, not both".toList
  | .noneGiven => "A selector or a line range is required".toList
  | .textNotKnown => "A line range needs the source text".toList

/-- What is worth knowing about a search. -/
inductive Remark where
  | readAsClasses (selector normalized : Text)
  | severalMatch (count : Nat) (selector : Text) (index : Nat)
  | noNames (identity : Identity)
  | located (identity : Identity)
deriving Repr, DecidableEq

def Remark.message : Remark → Text
  | .readAsClasses selector normalized =>
    "Selector ".toList ++ quoted selector ++ " looks like class names; using ".toList
      ++ quoted normalized
  | .severalMatch count selector index =>
    (toString count).toList ++ " elements match ".toList ++ quoted selector
      ++ "; using index ".toList ++ (toString index).toList
  | .noNames identity =>
    "Target ".toList ++ identity.summary
      ++ " has no classes or ids; detection may be limited".toList
  | .located identity => "Target ".toList ++ identity.summary

/-- Words that are read as names of types, which keeps `nav item` a selector of descendants. -/
def typeWords : List String :=
  ["div", "span", "header", "footer", "nav", "section", "article", "aside", "main", "p", "a", "ul",
    "ol", "li", "h1", "h2", "h3", "h4", "h5", "h6", "form", "button", "img", "table"]

/-- The class selector that a list of bare words stands for, if it stands for one. -/
def classSelector? (selector : Text) : Option Text :=
  let parts := words selector
  if 2 ≤ parts.length && parts.all (·.all isNameChar)
      && !parts.any (fun part => typeWords.any (·.toList == lower part)) then
    some ('.' :: ['.'].intercalate parts)
  else none

/-- A trimmed selector, with bare words read as classes. -/
def normalizeSelector (selector : Text) : Text × List Remark :=
  match classSelector? (trim selector) with
  | some normalized => (normalized, [.readAsClasses (trim selector) normalized])
  | none => (trim selector, [])

/-- Why an element of the whole page is no target. -/
def wholePageReason? (name : Text) : Option String :=
  match String.ofList name with
  | "html" => some "Targeting <html> includes the whole document; pick a component instead."
  | "head" => some "<head> holds metadata, not visible components."
  | "body" =>
    some "Targeting <body> analyzes the whole page; pick a section such as main or header."
  | _ => none

/-- Whether a text is a name that begins with a letter. -/
def isPlainName : Text → Bool
  | [] => false
  | c :: rest => c.isAlpha && rest.all isNameChar

/-- Selectors that may be meant by one that matches nothing. -/
def suggestionsFor (selector : Text) : List Text :=
  let parts := words selector
  (if isPlainName selector then ['.' :: selector, '#' :: selector] else [])
    ++ match parts with
      | first :: _ :: _ =>
        if parts.all isPlainName then ['.' :: ['.'].intercalate parts, '.' :: first] else []
      | _ => []

/-- The first and the last line that a range names. -/
def lineRange (range : Text) (total : Nat) : Except LocateFault (Nat × Nat) :=
  let s := trim range
  let front := s.takeWhile isDecimal
  match s.drop front.length with
  | '-' :: back =>
    if front.isEmpty || back.isEmpty || !back.all isDecimal then .error (.badRange range)
    else
      let first := decimalNumber front
      let last := decimalNumber back
      if first < 1 || last < 1 then .error (.rangeBeforeFirstLine range)
      else if last < first then .error (.rangeReversed first last)
      else if total < last then .error (.rangePastEnd last total)
      else .ok (first, last)
  | _ => .error (.badRange range)

namespace Page

/-- The names of an element and of the elements inside of it. -/
def identityOf (page : Page) (position : Nat) : Identity :=
  let elements := (page.inOrder.filter fun (_, other) =>
    other == position || page.isInside position other).map (·.1)
  Identity.gather
    (elements.flatMap (·.wordsOf "class"))
    (elements.filterMap (·.attribute? "id".toList))
    ((page.elements[position]?.map (·.name)).getD [])
    (elements.flatMap fun element =>
      (element.attributes.map (·.1)).filter fun name => beginsWith (lower name) "data-".toList)
    (elements.flatMap (·.wordsOf "part"))

/-- The element with an index among those that a selector picks. An index beyond either end is taken
for that end. -/
def pick (page : Page) (selector : Text) (index : Int) : List Remark × Except LocateFault Nat :=
  let (normalized, remarks) := normalizeSelector selector
  match wholePageReason? (lower normalized) with
  | some reason => (remarks, .error (.wholePage normalized reason))
  | none =>
    match query normalized with
    | .error .malformed => (remarks, .error (.invalidSelector selector))
    | .error .unsupported => (remarks, .error .unsupportedSelector)
    | .ok asked =>
      match page.select asked with
      | [] => (remarks, .error (.notFound selector (suggestionsFor (trim selector))))
      | first :: more =>
        let index := min index.toNat more.length
        let several :=
          if more.isEmpty then [] else [.severalMatch (more.length + 1) normalized index]
        (remarks ++ several, .ok ((first :: more)[index]?.getD first))

/-- The page that some lines of a text make, and the first element in it that is not one of the
whole page. -/
def pickLines (html range : Text) : Except LocateFault (Page × Nat) :=
  let lines := pieces '\n' html
  match lineRange range lines.length with
  | .error fault => .error fault
  | .ok (first, last) =>
    match parse? (['\n'].intercalate ((lines.take last).drop (first - 1))) with
    | none => .error .refusedPage
    | some page =>
      match page.inOrder.find? fun (element, _) => (wholePageReason? element.name).isNone with
      | none => .error (.notFound ("lines ".toList ++ range) [])
      | some (_, position) => .ok (page, position)

/-- The identity of a located element, and what there is to say about it. -/
def describe (page : Page) (position : Nat) : List Remark × Identity :=
  let identity := page.identityOf position
  ((if identity.hasSelectors then [] else [.noNames identity]) ++ [.located identity], identity)

end Page

/-- A page as it is given: its text, or the page alone. -/
inductive PageInput where
  | text (html : Text)
  | page (page : Page)

def PageInput.page? : PageInput → Option Page
  | .text html => parse? html
  | .page given => some given

/-- The target that is picked by a selector and an index. -/
def locateBySelector (input : PageInput) (selector : Text) (index : Int) :
    List Remark × Except LocateFault Identity :=
  match input.page? with
  | none => ([], .error .refusedPage)
  | some page =>
    match page.pick selector index with
    | (remarks, .error fault) => (remarks, .error fault)
    | (remarks, .ok position) =>
      let (more, identity) := page.describe position
      (remarks ++ more, .ok identity)

/-- The target that begins in some lines. -/
def locateByLines (input : PageInput) (range : Text) : List Remark × Except LocateFault Identity :=
  match input with
  | .page _ => ([], .error .textNotKnown)
  | .text html =>
    match pickLines html range with
    | .error fault => ([], .error fault)
    | .ok (page, position) =>
      let (remarks, identity) := page.describe position
      (remarks, .ok identity)

/-- The target that is asked for by exactly one of a selector and a range of lines. -/
def locate (input : PageInput) (selector : Option Text) (index : Int) (range : Option Text) :
    List Remark × Except LocateFault Identity :=
  match selector, range with
  | some _, some _ => ([], .error .bothGiven)
  | some selector, none => locateBySelector input selector index
  | none, some range => locateByLines input range
  | none, none => ([], .error .noneGiven)

end CascadeLens
