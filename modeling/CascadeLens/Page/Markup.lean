import CascadeLens.Page.Reference
import CascadeLens.Text.Case

/-! Markup: the tags and the text of a page, in order. Reading is forgiving. What looks like a tag
and is not completed becomes text, but only in a second pass over what the first pass leaves. -/

namespace CascadeLens.Page

open Text

inductive Markup where
  /-- A start tag. It may say itself that nothing is inside. -/
  | enter (name : Text) (attributes : List (Text × Text)) (closed : Bool)
  | leave (name : Text)
  | text (content : Text)
  /-- A marked section of characters. -/
  | marked
deriving Repr, DecidableEq

/-- Characters that end the name of a tag. -/
def endsTagName (c : Char) : Bool :=
  c == '\t' || c == '\n' || c == '\r' || c == '\x0c' || c == ' ' || c == '/' || c == '>'
    || c == '\x00'

def isGap (c : Char) : Bool := isBlank c || c == '/'

/-- Whether an attribute may begin behind a character. -/
def allowsAttribute (before : Char) : Bool := before == '"' || before == '\'' || isGap before

/-- The length of blanks and of slashes that do not end a tag. -/
def attributeGap : Text → Nat
  | [] => 0
  | c :: rest =>
    if isBlank c || (c == '/' && rest.head? != some '>') then attributeGap rest + 1 else 0

/-- The value of an attribute where an equals sign may stand, and its length with the sign. A quote
that is not closed makes no value, unless blanks or further signs stand before it. -/
def attributeValue? (s : Text) : Option (Text × Nat) :=
  let before := (s.takeWhile isBlank).length
  let signs := ((s.drop before).takeWhile (· == '=')).length
  let behind := s.drop (before + signs)
  let after := (behind.takeWhile isBlank).length
  let bare (s : Text) : Text := s.takeWhile fun c => c != '>' && !isBlank c
  if signs == 0 then none
  else
    match behind.drop after with
    | c :: rest =>
      if c == '"' || c == '\'' then
        let quoted := rest.takeWhile (· != c)
        if quoted.length < rest.length then
          some (quoted, before + signs + after + quoted.length + 2)
        else if 0 < after then some ([], before + signs + after)
        else if 1 < signs then
          let value := bare ('=' :: c :: rest)
          some (value, before + signs - 1 + value.length)
        else none
      else
        let value := bare (c :: rest)
        some (value, before + signs + after + value.length)
    | [] => some ([], before + signs + after)

/-- The attributes at the front of a text behind a character, and what follows them. A value is
empty where none is given. -/
def attributes (before : Char) : Text → List (Text × Text) × Text
  | [] => ([], [])
  | c :: rest =>
    if !allowsAttribute before || isGap c || c == '>' then ([], c :: rest)
    else
      let more := rest.takeWhile fun c => !isGap c && c != '=' && c != '>'
      let behind := rest.drop more.length
      let (value, length) := (attributeValue? behind).getD ([], 0)
      let gap := attributeGap (behind.drop length)
      let taken := more.length + length + gap
      let last := ((c :: rest.take taken).getLast?).getD c
      let (found, rest) := attributes last (rest.drop taken)
      ((lower (c :: more), unescape value) :: found, rest)
termination_by s => s.length
decreasing_by simp only [List.length_cons, List.length_drop]; omega

/-- What a reader makes of a construct: nothing as long as it is not completed, a refusal of the
whole page, or markup with its length. -/
inductive Construct where
  | unfinished
  | refused
  | found (markup : List Markup) (length : Nat)

/-- A start tag behind its opening bracket. -/
def startTag (s : Text) : Construct :=
  let name := s.takeWhile (!endsTagName ·)
  let behind := s.drop name.length
  let gap := behind.takeWhile isGap
  let last := ((name ++ gap).getLast?).getD ' '
  let (found, rest) := attributes last (behind.drop gap.length)
  let length := s.length - rest.length
  match rest with
  | [] => .unfinished
  | '>' :: _ =>
    .found [.enter (lower name) found (found.isEmpty && gap.getLast? == some '/')] (length + 1)
  | '/' :: '>' :: _ => .found [.enter (lower name) found true] (length + 2)
  | c :: _ =>
    if c.isAlpha || c == '=' || c == '/' then .unfinished
    else .found [.text ('<' :: s.take length)] length

def isEndNamePart (c : Char) : Bool := c.isAlphanum || c == '-' || c == '.' || c == ':' || c == '_'

/-- The name of an end tag that holds nothing else, behind its opening bracket and slash. -/
def plainEndName? (s : Text) : Option Text :=
  let behind := trimLeft s
  let name := behind.takeWhile isEndNamePart
  match name, trimLeft (behind.drop name.length) with
  | c :: _, '>' :: _ => if c.isAlpha then some name else none
  | _, _ => none

/-- An end tag behind its opening bracket and slash. -/
def endTag (s : Text) : Construct :=
  let inside := s.takeWhile (· != '>')
  if inside.length == s.length then .unfinished
  else
    let length := inside.length + 1
    match plainEndName? s with
    | some name => .found [.leave (lower name)] length
    | none =>
      match inside with
      | c :: _ =>
        if c.isAlpha then .found [.leave (lower (inside.takeWhile (!endsTagName ·)))] length
        else .found [] length
      | [] => .found [] length

/-- The length of what ends with two hyphens, blanks and a closing bracket. -/
def commentEnd? : Text → Option Nat
  | [] => none
  | c :: rest =>
    let here :=
      match c, rest with
      | '-', '-' :: more =>
        let blanks := (more.takeWhile isBlank).length
        if (more.drop blanks).head? == some '>' then some (blanks + 3) else none
      | _, _ => none
    here.or ((commentEnd? rest).map (· + 1))

/-- The length of closing square brackets, as many as asked for, and an angle bracket, with blanks
between them. -/
def closingBrackets? : Nat → Text → Option Nat
  | 0, s => if s.head? == some '>' then some 1 else none
  | more + 1, s =>
    match s with
    | ']' :: behind =>
      let blanks := (behind.takeWhile isBlank).length
      (closingBrackets? more (behind.drop blanks)).map (· + blanks + 1)
    | _ => none

/-- The length of what ends with so many closing brackets. -/
def sectionEnd? (brackets : Nat) : Text → Option Nat
  | [] => none
  | c :: rest =>
    (closingBrackets? brackets (c :: rest)).or ((sectionEnd? brackets rest).map (· + 1))

/-- A marked section behind its opening brackets. -/
def markedSection (s : Text) : Construct :=
  match s with
  | [] => .unfinished
  | c :: _ =>
    if !c.isAlpha then .refused
    else
      let name := s.takeWhile fun c => c.isAlphanum || c == '-' || c == '_' || c == '.'
      let taken := name.length + ((s.drop name.length).takeWhile isBlank).length
      let known := lower name
      let isOneOf (words : List String) : Bool := words.any (·.toList == known)
      if taken == s.length then .unfinished
      else
        let brackets :=
          if isOneOf ["temp", "cdata", "ignore", "include", "rcdata"] then some 2
          else if isOneOf ["if", "else", "endif"] then some 1
          else none
        match brackets with
        | none => .refused
        | some brackets =>
          match sectionEnd? brackets s with
          | none => .unfinished
          | some length =>
            let isText := known == "cdata".toList && (s.drop name.length).head? == some '['
            .found (if isText then [.marked] else []) length

/-- Something that ends with the next closing bracket and is passed over. -/
def passedOver (s : Text) : Construct :=
  let inside := (s.takeWhile (· != '>')).length
  if inside == s.length then .unfinished else .found [] (inside + 1)

/-- What begins with an angle bracket, behind it. -/
def construct : Text → Construct
  | [] => .unfinished
  | '/' :: rest =>
    match endTag rest with
    | .found markup length => .found markup (length + 1)
    | other => other
  | '!' :: '-' :: '-' :: rest =>
    match commentEnd? rest with
    | none => .unfinished
    | some length => .found [] (length + 3)
  | '?' :: rest => passedOver ('?' :: rest)
  | '!' :: '[' :: rest =>
    match markedSection rest with
    | .found markup length => .found markup (length + 2)
    | other => other
  | '!' :: rest => passedOver ('!' :: rest)
  | c :: rest => if c.isAlpha then startTag (c :: rest) else .found [.text ['<']] 0

/-- The length of what an unfinished construct becomes text for, behind its bracket: up to the next
closing bracket, or else in front of the next opening one. -/
def unfinishedLength (s : Text) : Nat :=
  let inside := (s.takeWhile (· != '>')).length
  if inside < s.length then inside + 1
  else
    let before := (s.takeWhile (· != '<')).length
    if before < s.length then before else 0

/-- The name of an element whose content is not markup. -/
def isRawName (name : Text) : Bool := name == "script".toList || name == "style".toList

/-- Whether an end tag of a name begins here, and its length. -/
def rawEndHere? (name s : Text) : Option Nat :=
  match drop? "</".toList s with
  | none => none
  | some behind =>
    let blanks := (behind.takeWhile isBlank).length
    let found := (behind.drop blanks).take name.length
    let rest := behind.drop (blanks + name.length)
    let after := (rest.takeWhile isBlank).length
    if found.map Char.toLower == name && (rest.drop after).head? == some '>' then
      some (2 + blanks + name.length + after + 1)
    else none

/-- How far away the end tag of a name is, and its length. -/
def rawEnd? (name : Text) : Text → Option (Nat × Nat)
  | [] => none
  | c :: rest =>
    match rawEndHere? name (c :: rest) with
    | some length => some (0, length)
    | none => (rawEnd? name rest).map fun (before, length) => (before + 1, length)

/-- What a reader does at a place. -/
inductive Move where
  /-- The rest has to wait for the end. -/
  | wait
  | refuse
  /-- Takes markup, and so many characters behind the first; and stops there if told so. -/
  | take (markup : List Markup) (raw : Option Text) (length : Nat) (stop : Bool)

/-- A reference in text behind its ampersand. -/
def textReference (s : Text) : Move :=
  match s with
  | '#' :: rest =>
    let (digits, width, code) :=
      match rest with
      | 'x' :: more | 'X' :: more =>
        let digits := more.takeWhile isHexDigit
        (digits, digits.length + 1, hexNumber digits)
      | _ =>
        let digits := rest.takeWhile Char.isDigit
        (digits, digits.length, decimalNumber digits)
    let behind := rest.drop width
    if digits.isEmpty || behind.isEmpty || behind.head?.any isHexDigit then
      if rest.contains ';' then .take [.text ['&', '#']] none 1 true else .wait
    else .take [.text [numberedInText code]] none (1 + width + semicolon behind) false
  | c :: rest =>
    if c.isAlpha then
      let name := rest.takeWhile fun c => c.isAlphanum || c == '-' || c == '.'
      let ended := semicolon (rest.drop name.length)
      if name.length == rest.length then .wait
      else
        let written := (entity? (c :: name)).getD ('&' :: c :: name)
        .take [.text written] none (name.length + ended + 1) false
    else .take [.text ['&']] none 0 false
  | [] => .wait

/-- The element whose raw content follows markup. -/
def rawAfter : List Markup → Option Text
  | [.enter name _ false] => if isRawName name then some name else none
  | _ => none

/-- Reads at a place that begins with a character, in raw content or not. -/
def move (final : Bool) (raw : Option Text) (c : Char) (rest : Text) : Move :=
  match raw with
  | some name =>
    match rawEnd? name (c :: rest) with
    | none => .wait
    | some (before, length) =>
      let content := (c :: rest).take before
      let text : List Markup := if content.isEmpty then [] else [.text content]
      .take (text ++ [.leave name]) none (before + length - 1) false
  | none =>
    if c == '<' then
      match construct rest with
      | .found markup length => .take markup (rawAfter markup) length false
      | .refused => .refuse
      | .unfinished =>
        if final && !rest.isEmpty then
          let length := unfinishedLength rest
          .take [.text (c :: rest.take length)] none length false
        else .wait
    else if c == '&' then textReference rest
    else
      let run := rest.takeWhile fun c => c != '<' && c != '&'
      .take [.text (c :: run)] none run.length false

/-- A pass over a text: the markup found, the raw content it is in, and what is left. `none` if the
page is refused. -/
def pass (final : Bool) (raw : Option Text) : Text → Option (List Markup × Option Text × Text)
  | [] => some ([], raw, [])
  | c :: rest =>
    match move final raw c rest with
    | .wait => some ([], raw, c :: rest)
    | .refuse => none
    | .take markup raw length stop =>
      if stop then some (markup, raw, rest.drop length)
      else
        (pass final raw (rest.drop length)).map fun (more, raw, left) => (markup ++ more, raw, left)
termination_by s => s.length
decreasing_by simp only [List.length_cons, List.length_drop]; omega

/-- The markup of a page. What the last pass leaves is text, but not in raw content. -/
def markup? (s : Text) : Option (List Markup) :=
  match pass false none s with
  | none => none
  | some (first, raw, left) =>
    match pass true raw left with
    | none => none
    | some (second, raw, left) =>
      some (first ++ second ++ (if left.isEmpty || raw.isSome then [] else [.text left]))

end CascadeLens.Page
