import CascadeLens.Page.Query.Basic
import CascadeLens.Page.Reference
import CascadeLens.Selector.Token

/-! Reading queries. Unlike in stylesheets, a selector that is not understood is an error here. -/

namespace CascadeLens.Page

open Text

/-- Why a text is no query. -/
inductive QueryFault where
  | malformed
  /-- Pseudo-elements and rules pick no elements. -/
  | unsupported
deriving Repr, DecidableEq

/-- The length of a blank. A carriage return and a line feed are one. -/
def spaceLength : Text → Nat
  | '\r' :: '\n' :: _ => 2
  | c :: _ => if isSpace c then 1 else 0
  | [] => 0

/-- The length of blanks and comments, and whether there are blanks. -/
def gap : Text → Nat × Bool
  | [] => (0, false)
  | c :: rest =>
    if isSpace c then ((gap rest).1 + 1, true)
    else
      match (if c == '/' then Selector.commentRest? rest else none) with
      | none => (0, false)
      | some length =>
        let (more, hasBlank) := gap (rest.drop length)
        (length + 1 + more, hasBlank)
termination_by s => s.length
decreasing_by all_goals simp only [List.length_cons, List.length_drop]; omega

def gapLength (s : Text) : Nat := (gap s).1

/-- The length of the blanks and comments at the end. -/
def trailingGap : Text → Nat
  | [] => 0
  | c :: rest =>
    if gapLength (c :: rest) == rest.length + 1 then rest.length + 1 else trailingGap rest

def isLineEnd (c : Char) : Bool := c == '\n' || c == '\r' || c == '\x0c'

/-- The length of what follows the backslash of an escape. -/
def escapeLength? (s : Text) : Option Nat :=
  let digits := ((s.take 6).takeWhile isHexDigit).length
  match s with
  | [] => some 0
  | c :: _ =>
    if 0 < digits then some (digits + spaceLength (s.drop digits))
    else if isLineEnd c then none
    else some 1

def beginsName (c : Char) : Bool := c.isAlpha || c == '_' || 0xA0 ≤ c.toNat

/-- The length of characters and escapes of a name. -/
def nameRest : Text → Nat
  | [] => 0
  | c :: rest =>
    if c == '\\' then
      match escapeLength? rest with
      | none => 0
      | some length => length + 1 + nameRest (rest.drop length)
    else if beginsName c || c.isDigit || c == '-' then nameRest rest + 1
    else 0
termination_by s => s.length
decreasing_by all_goals simp only [List.length_cons, List.length_drop]; omega

/-- Whether a name that has no hyphen in front begins here. -/
def atName : Text → Bool
  | [] => false
  | c :: rest => beginsName c || (c == '\\' && (escapeLength? rest).isSome)

/-- The length of the name at the front of a text, zero if there is none. -/
def nameLength (s : Text) : Nat :=
  let isName :=
    match s with
    | '-' :: '-' :: _ => true
    | '-' :: rest => atName rest
    | _ => atName s
  if isName then nameRest s else 0

/-- The character with a code. What cannot stand in a text is replaced. -/
def charOf (code : Nat) : Char :=
  if code == 0 || 0x10FFFF < code || (0xD800 ≤ code && code ≤ 0xDFFF) then '\uFFFD'
  else Char.ofNat code

/-- What the escape stands for that a text follows, and its length there. A code counts only with a
blank behind it, and an escaped line end is nothing. -/
def escaped (s : Text) : Text × Nat :=
  let digits := (s.take 6).takeWhile isHexDigit
  let blanks := spaceLength (s.drop digits.length)
  match s with
  | [] => (['\uFFFD'], 0)
  | c :: _ =>
    if !digits.isEmpty && 0 < blanks then ([charOf (hexNumber digits)], digits.length + blanks)
    else if isLineEnd c then ([], spaceLength s)
    else ([c], 1)

/-- A name or the content of a string with what its escapes stand for. -/
def unescapeName : Text → Text
  | [] => []
  | c :: rest =>
    if c == '\\' then (escaped rest).1 ++ unescapeName (rest.drop (escaped rest).2)
    else c :: unescapeName rest
termination_by s => s.length
decreasing_by all_goals simp only [List.length_cons, List.length_drop]; omega

/-- How the element on the right of a combinator stands to the one on its left. -/
inductive Combinator where
  | inside
  | directlyInside
  | after
  | directlyAfter
deriving Repr, DecidableEq

/-- The way from the right to the left. -/
def Combinator.back : Combinator → Axis
  | .inside => .ancestor
  | .directlyInside => .parent
  | .after => .earlier
  | .directlyAfter => .previous

/-- The way from the left to the right. -/
def Combinator.forth : Combinator → Axis
  | .inside => .descendant
  | .directlyInside => .child
  | .after => .later
  | .directlyAfter => .next

/-- What a list in parentheses is for. -/
inductive Enclosure where
  /-- One of the list, in which missing members may be forgiven. -/
  | choice (forgiving : Bool)
  | exclusion
  /-- Elements that are reached from this one. -/
  | inclusion
  /-- A state that no element is in. -/
  | inert
  | place (step offset : Int) (fromEnd : Bool)
deriving Repr, DecidableEq

def Enclosure.condition (paths : List QueryPath) : Enclosure → Condition
  | .choice _ => .anyOf paths
  | .exclusion => .noneOf paths
  | .inclusion => .anyOf paths
  | .inert => .never
  | .place step offset fromEnd => .place step offset false fromEnd paths

inductive Token where
  | conditions (conditions : List Condition)
  /-- The name of a type, which has to come first. -/
  | typeName (condition : Condition)
  | combinator (combinator : Combinator)
  | comma
  | enter (enclosure : Enclosure)
  | close

def firstChild (sameType fromEnd : Bool) : Condition := .place 0 1 sameType fromEnd []

/-- The conditions of a pseudo-class without an argument. Most states exist only while a page is
used, so that no element is in them. -/
def pseudoClass? (name : Text) : Option (List Condition) :=
  match String.ofList name with
  | "root" => some [.root]
  | "scope" => some [.scope]
  | "empty" => some [.empty]
  | "first-child" => some [firstChild false false]
  | "last-child" => some [firstChild false true]
  | "only-child" => some [firstChild false false, firstChild false true]
  | "first-of-type" => some [firstChild true false]
  | "last-of-type" => some [firstChild true true]
  | "only-of-type" => some [firstChild true false, firstChild true true]
  | written =>
    if ["active", "autofill", "buffering", "current", "focus", "focus-visible", "focus-within",
      "fullscreen", "future", "host", "hover", "local-link", "modal", "past", "paused",
      "picture-in-picture", "playing", "popover-open", "seeking", "stalled", "target",
      "target-within", "user-invalid", "user-valid", "visited", "volume-locked"].contains written
    then some [.never]
    else none

def enclosure? (name : Text) : Option Enclosure :=
  match String.ofList name with
  | "is" | "where" => some (.choice true)
  | "matches" => some (.choice false)
  | "not" => some .exclusion
  | "has" => some .inclusion
  | "current" | "host" | "host-context" => some .inert
  | _ => none

/-- A sign in front of a number, and its length. -/
def sign : Text → Int × Nat
  | '-' :: _ => (-1, 1)
  | '+' :: _ => (1, 1)
  | _ => (1, 0)

def isStepMark (c : Char) : Bool := c == 'n' || c == 'N'

/-- The step and the offset of a place, and the length of their text. -/
def place? (s : Text) : Option (Int × Int × Nat) :=
  match dropWord? "even".toList s, dropWord? "odd".toList s with
  | some _, _ => some (2, 0, 4)
  | _, some _ => some (2, 1, 3)
  | none, none =>
    let (factor, signLength) := sign s
    let digits := (s.drop signLength).takeWhile Char.isDigit
    let length := signLength + digits.length
    let rest := s.drop length
    let value : Int := factor * if digits.isEmpty then 1 else decimalNumber digits
    if rest.head?.any isStepMark then
      let behind := rest.drop 1
      let before := gapLength behind
      let (direction, width) := sign (behind.drop before)
      let after := gapLength (behind.drop (before + width))
      let offset := (behind.drop (before + width + after)).takeWhile Char.isDigit
      if width == 0 || offset.isEmpty then some (value, 0, length + 1)
      else
        some (value, direction * (decimalNumber offset : Nat),
          length + 1 + before + width + after + offset.length)
    else if digits.isEmpty then none
    else some (0, value, length)

/-- The token of a place behind its parenthesis. Only among children can other elements be left out
of the count. -/
def placeToken? (sameType fromEnd : Bool) (s : Text) : Option (Token × Nat) :=
  let before := gapLength s
  match place? (s.drop before) with
  | none => none
  | some (step, offset, width) =>
    let rest := s.drop (before + width)
    let (after, hasBlank) := gap rest
    match rest.drop after with
    | ')' :: _ =>
      some (.conditions [.place step offset sameType fromEnd []], before + width + after + 1)
    | behind =>
      match (if sameType || !hasBlank then none else dropWord? "of".toList behind) with
      | none => none
      | some list =>
        let (more, hasBlank) := gap list
        if hasBlank then
          some (.enter (.place step offset fromEnd), before + width + after + 2 + more)
        else none

/-- The token that a colon begins, and its length behind the colon. -/
def pseudoToken (s : Text) : Except QueryFault (Token × Nat) :=
  let length := nameLength s
  let name := asciiLower (unescapeName (s.take length))
  if length == 0 then
    match s with
    | ':' :: rest => .error (if nameLength rest == 0 then .malformed else .unsupported)
    | _ => .error .malformed
  else
    let found :=
      match s.drop length with
      | '(' :: rest =>
        let behind (token : Option (Token × Nat)) : Option (Token × Nat) :=
          token.map fun (token, width) => (token, length + 1 + width)
        match String.ofList name with
        | "nth-child" => behind (placeToken? false false rest)
        | "nth-last-child" => behind (placeToken? false true rest)
        | "nth-of-type" => behind (placeToken? true false rest)
        | "nth-last-of-type" => behind (placeToken? true true rest)
        | _ => behind ((enclosure? name).map fun enclosure => (.enter enclosure, gapLength rest))
      | _ => (pseudoClass? name).map fun conditions => (.conditions conditions, length)
    match found with
    | some token => .ok token
    | none => .error .malformed

/-- The length of a name that may have a namespace in front, and of the namespace with its bar. -/
def qualifiedLength? (anyName : Bool) (s : Text) : Option (Nat × Nat) :=
  let width (anyName : Bool) (s : Text) : Nat :=
    if anyName && s.head? == some '*' then 1 else nameLength s
  let first := width true s
  let name := width anyName s
  match s.drop first with
  | '|' :: rest =>
    if 0 < width anyName rest then some (first + 1, width anyName rest)
    else if 0 < name then some (0, name) else none
  | _ => if 0 < name then some (0, name) else none

/-- The token of a type. Elements are in no namespace that has a name. -/
def typeToken? (s : Text) : Option (Token × Nat) :=
  (qualifiedLength? true s).map fun (space, width) =>
    let name := unescapeName ((s.drop space).take width)
    let condition : Condition :=
      if 0 < space && unescapeName (s.take (space - 1)) != ['*'] then .never
      else if name == ['*'] then .anything
      else .typeName name
    (.typeName condition, space + width)

/-- The content of a string behind its quote, and its length with the closing one. -/
def stringContent? (quote : Char) : Text → Option (Text × Nat)
  | [] => none
  | '\\' :: '\r' :: '\n' :: rest =>
    (stringContent? quote rest).map fun (content, length) =>
      ('\\' :: '\r' :: '\n' :: content, length + 3)
  | '\\' :: c :: rest =>
    (stringContent? quote rest).map fun (content, length) => ('\\' :: c :: content, length + 2)
  | c :: rest =>
    if c == quote then some ([], 1)
    else if isLineEnd c || c == '\\' then none
    else (stringContent? quote rest).map fun (content, length) => (c :: content, length + 1)

/-- The value of a comparison and its length. -/
def comparedWith? (s : Text) : Option (Text × Nat) :=
  match s with
  | [] => none
  | c :: rest =>
    if c == '"' || c == '\'' then
      (stringContent? c rest).map fun (content, length) => (unescapeName content, length + 1)
    else
      let length := nameLength s
      if length == 0 then none else some (unescapeName (s.take length), length)

/-- The sign of a comparison: what it compares, whether it is turned round, and its length. -/
def comparison? : Text → Option (Comparison × Bool × Nat)
  | '=' :: _ => some (.equals, false, 1)
  | '!' :: '=' :: _ => some (.equals, true, 2)
  | '~' :: '=' :: _ => some (.hasWord, false, 2)
  | '|' :: '=' :: _ => some (.hasRange, false, 2)
  | '^' :: '=' :: _ => some (.begins, false, 2)
  | '$' :: '=' :: _ => some (.ends, false, 2)
  | '*' :: '=' :: _ => some (.contains, false, 2)
  | _ => none

/-- The length up to a closing square bracket, and a letter before it that says whether case
counts. -/
def attributeEnd? (s : Text) : Option (Option Bool × Nat) :=
  let before := gapLength s
  match s.drop before with
  | ']' :: _ => some (none, before + 1)
  | c :: rest =>
    let after := gapLength rest
    let letter :=
      if sameLetter 'i' c then some true else if sameLetter 's' c then some false else none
    if letter.isSome && (rest.drop after).head? == some ']' then
      some (letter, before + 1 + after + 1)
    else none
  | [] => none

/-- The condition of an attribute behind its bracket, and its length. The type of an element is
compared in any case. -/
def attributeCondition? (s : Text) : Option (Condition × Nat) :=
  let front := gapLength s
  match qualifiedLength? false (s.drop front) with
  | none => none
  | some (space, width) =>
    let start := front + space + width
    let name := unescapeName ((s.drop (front + space)).take width)
    let before := gapLength (s.drop start)
    match s.drop (start + before) with
    | ']' :: _ => some (.attribute name, start + before + 1)
    | rest =>
      match comparison? rest with
      | none => none
      | some (how, inverted, sign) =>
        let after := gapLength (rest.drop sign)
        match comparedWith? (rest.drop (sign + after)) with
        | none => none
        | some (value, length) =>
          match attributeEnd? (rest.drop (sign + after + length)) with
          | none => none
          | some (letter, last) =>
            let anyCase := letter.getD (asciiLower name == "type".toList)
            let condition : Condition := .comparison name how value anyCase
            some (if inverted then .noneOf [[(.itself, [condition])]] else condition,
              start + before + sign + after + length + last)

/-- The token that begins with a character which is neither blank nor a combinator, and its
length. -/
def simpleToken (c : Char) (rest : Text) : Except QueryFault (Token × Nat) :=
  let named (condition : Text → Condition) : Option (Token × Nat) :=
    let length := nameLength rest
    if length == 0 then none
    else some (.conditions [condition (unescapeName (rest.take length))], length + 1)
  let found :=
    if c == '.' then named .className
    else if c == '#' then named .idName
    else if c == '&' then some (.conditions [.scope], 1)
    else if c == '[' then
      (attributeCondition? rest).map fun (condition, length) =>
        (.conditions [condition], length + 1)
    else typeToken? (c :: rest)
  match found with
  | some token => .ok token
  | none =>
    if c == ':' then (pseudoToken rest).map fun (token, length) => (token, length + 1)
    else
      match c, rest with
      | '@', letter :: name =>
        .error (if (letter == 'p' || letter == 'P') && 0 < nameLength name then .unsupported
          else .malformed)
      | _, _ => .error .malformed

/-- The token that a single mark makes. -/
def mark? : Char → Option Token
  | ',' => some .comma
  | '>' => some (.combinator .directlyInside)
  | '~' => some (.combinator .after)
  | '+' => some (.combinator .directlyAfter)
  | _ => none

/-- The token at the front of a text, and its length. Blanks by themselves are a combinator. -/
def token (s : Text) : Except QueryFault (Token × Nat) :=
  let (length, hasBlank) := gap s
  match s.drop length with
  | [] => .error .malformed
  | c :: rest =>
    if c == ')' then .ok (.close, length + 1)
    else
      match mark? c with
      | some token => .ok (token, length + 1 + gapLength rest)
      | none =>
        if hasBlank then .ok (.combinator .inside, length)
        else if 0 < length then .error .malformed
        else simpleToken c rest

/-- A list of paths being read. The conditions are those of the compound begun. The steps and the
paths read are in reverse; between elements that are reached, the next way is known in advance. -/
structure Draft where
  enclosure : Option Enclosure := none
  conditions : List Condition := []
  steps : QueryPath := []
  way : Axis := .descendant
  paths : List QueryPath := []

namespace Draft

def isRelative (draft : Draft) : Bool := draft.enclosure == some .inclusion

def isForgiving (draft : Draft) : Bool := draft.enclosure == some (.choice true)

def add (draft : Draft) (conditions : List Condition) : Draft :=
  { draft with conditions := draft.conditions ++ conditions }

/-- Ends a compound with a combinator. -/
def combine (draft : Draft) (combinator : Combinator) : Except QueryFault Draft :=
  if draft.conditions.isEmpty then
    if draft.isRelative && draft.way == .descendant then .ok { draft with way := combinator.forth }
    else .error .malformed
  else if draft.isRelative then
    .ok { draft with
      steps := (draft.way, draft.conditions) :: draft.steps
      conditions := []
      way := combinator.forth }
  else
    .ok { draft with
      steps := (combinator.back, draft.conditions) :: draft.steps
      conditions := [] }

/-- The path that ends with the compound begun. -/
def path (draft : Draft) : QueryPath :=
  if draft.isRelative then ((draft.way, draft.conditions) :: draft.steps).reverse
  else (.itself, draft.conditions) :: draft.steps

/-- Ends a path with a comma. -/
def endPath (draft : Draft) : Except QueryFault Draft :=
  let ended (path : QueryPath) : Draft :=
    { enclosure := draft.enclosure, paths := path :: draft.paths }
  if !draft.conditions.isEmpty then .ok (ended draft.path)
  else if draft.isForgiving then .ok (ended [(.itself, [.never])])
  else .error .malformed

/-- Ends the list. A last member may be missing where that is forgiven, but not behind a combinator
if there are other members. -/
def finish (draft : Draft) : Except QueryFault (List QueryPath) :=
  if !draft.conditions.isEmpty then .ok (draft.path :: draft.paths).reverse
  else if draft.isForgiving && (draft.paths.isEmpty || draft.steps.isEmpty) then
    .ok draft.paths.reverse
  else .error .malformed

/-- Takes a token into a list and the lists around it, innermost first. -/
def take (draft : Draft) (outer : List Draft) : Token → Except QueryFault (Draft × List Draft)
  | .conditions conditions => .ok (draft.add conditions, outer)
  | .typeName condition =>
    if draft.conditions.isEmpty then .ok (draft.add [condition], outer) else .error .malformed
  | .combinator combinator => (draft.combine combinator).map (·, outer)
  | .comma => draft.endPath.map (·, outer)
  | .enter enclosure => .ok ({ enclosure := some enclosure }, draft :: outer)
  | .close =>
    match draft.enclosure, outer with
    | some enclosure, around :: more =>
      draft.finish.map fun paths => (around.add [enclosure.condition paths], more)
    | _, _ => .error .malformed

/-- Reads on until no more than a number of characters is left. -/
def read (trailing : Nat) (draft : Draft) (outer : List Draft) :
    Text → Except QueryFault (List QueryPath)
  | [] => if outer.isEmpty then draft.finish else .error .malformed
  | c :: rest =>
    if rest.length < trailing then if outer.isEmpty then draft.finish else .error .malformed
    else
      match token (c :: rest) with
      | .error fault => .error fault
      | .ok (token, length) =>
        match draft.take outer token with
        | .error fault => .error fault
        | .ok (draft, outer) => read trailing draft outer (rest.drop (length - 1))
termination_by s => s.length
decreasing_by simp only [List.length_cons, List.length_drop]; omega

end Draft

/-- The query that a text spells. -/
def query (s : Text) : Except QueryFault (List QueryPath) :=
  let s := s.map fun c => if c == '\x00' then '\uFFFD' else c
  Draft.read (trailingGap s) {} [] (s.drop (gapLength s))

end CascadeLens.Page
