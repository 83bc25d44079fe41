import CascadeLens.Text.Case

/-! The lexical level of selectors. A token is read off the front of the text and is described
by its length; which tokens can begin with a character does not depend on what came before,
because a dot, a colon and a square bracket take what has to follow them into their token. -/

namespace CascadeLens.Selector

open Text

/-- Pseudo-classes and pseudo-elements whose argument is a selector list. -/
inductive ListFunction where
  /-- Counts as its most specific argument. -/
  | anyOf
  /-- Counts for nothing. -/
  | whereOf
  /-- A pseudo-class that counts beside its argument. -/
  | host
  /-- A pseudo-element that counts beside its argument. -/
  | slotted
deriving Repr, DecidableEq

/-- One simple selector that holds no other selector. Names are kept as they are written. -/
inductive Simple where
  | typeName (name : Text)
  | universal
  | nesting
  | idName (name : Text)
  | className (name : Text)
  | attribute (content : Text)
  | pseudoClass (name : Text)
  | pseudoElement (name : Text)
  | pseudoFunction (content : Text)
  | elementFunction (content : Text)
deriving Repr, DecidableEq

inductive Token where
  | simple (part : Simple)
  | combinator
  | enter (function : ListFunction)
  | comma
  | close
deriving Repr, DecidableEq

def isAscii (c : Char) : Bool := c.toNat < 128

/-- The length of what follows the backslash of an escape: up to six hexadecimal digits with one
blank after them, or any other character but a line feed. Zero if there is no escape. -/
def escapeLength (s : Text) : Nat :=
  let digits := ((s.take 6).takeWhile isHexDigit).length
  if digits == 0 then
    match s with
    | [] => 0
    | c :: _ => if c == '\n' then 0 else 1
  else
    match s.drop digits with
    | [] => digits
    | c :: _ => if isBlank c then digits + 1 else digits

/-- The length of the name characters at the front of a text, escapes included. -/
def nameLength : Text → Nat
  | [] => 0
  | c :: rest =>
    if c == '\\' then
      match escapeLength rest with
      | 0 => 0
      | extra + 1 => extra + 2 + nameLength (rest.drop (extra + 1))
    else if isNameChar c || !isAscii c then 1 + nameLength rest
    else 0
termination_by s => s.length
decreasing_by all_goals simp only [List.length_cons, List.length_drop]; omega

/-- The length of an identifier whose first character is not a hyphen. -/
def wordLength : Text → Nat
  | [] => 0
  | c :: rest =>
    if c.isAlpha || c == '_' || c == '\\' || !isAscii c then nameLength (c :: rest) else 0

/-- The length of the identifier at the front of a text, zero if there is none. Two hyphens begin
one, and a single hyphen does if a name follows that starts with neither digit nor hyphen. -/
def identifierLength : Text → Nat
  | '-' :: '-' :: rest => 2 + nameLength rest
  | '-' :: rest =>
    match wordLength rest with
    | 0 => 0
    | length + 1 => length + 2
  | s => wordLength s

/-- The length of a quoted string behind its opening quote, the closing one included. -/
def stringLength? (quote : Char) : Text → Option Nat
  | [] => none
  | '\\' :: [] => none
  | '\\' :: c :: rest => if c == '\n' then none else (stringLength? quote rest).map (· + 2)
  | c :: rest =>
    if c == quote then some 1
    else if c == '\n' then none
    else (stringLength? quote rest).map (· + 1)

/-- The length of an attribute selector behind its bracket, the closing bracket included. A
closing bracket inside quotes does not count, and a quote has to be closed. -/
def attributeLength? : Text → Option Nat
  | [] => none
  | c :: rest =>
    if c == ']' then some 1
    else if c == '"' || c == '\'' then
      match stringLength? c rest with
      | none => none
      | some length => (attributeLength? (rest.drop length)).map (· + (length + 1))
    else (attributeLength? rest).map (· + 1)
termination_by s => s.length
decreasing_by all_goals simp only [List.length_cons, List.length_drop]; omega

/-- The length of what follows a comment's opening marks, the closing marks included. -/
def commentLength? : Text → Option Nat
  | [] => none
  | '*' :: '/' :: _ => some 2
  | _ :: rest => (commentLength? rest).map (· + 1)

/-- The length of the rest of a comment that a slash may begin. -/
def commentRest? : Text → Option Nat
  | '*' :: rest => (commentLength? rest).map (· + 1)
  | _ => none

/-- The length of free arguments behind an opening parenthesis, the closing one included. A
comment hides parentheses only where it follows a parenthesis or another comment. -/
def argumentsLength? (depth : Nat) (fresh : Bool) : Text → Option Nat
  | [] => none
  | c :: rest =>
    if c == '(' then (argumentsLength? (depth + 1) true rest).map (· + 1)
    else if c == ')' then
      match depth with
      | 0 => some 1
      | depth + 1 => (argumentsLength? depth true rest).map (· + 1)
    else
      match (if fresh && c == '/' then commentRest? rest else none) with
      | some length => (argumentsLength? depth true (rest.drop length)).map (· + (length + 1))
      | none => (argumentsLength? depth false rest).map (· + 1)
termination_by s => s.length
decreasing_by all_goals simp only [List.length_cons, List.length_drop]; omega

/-- The length of blanks and comments at the front of a text. A run of blanks begins with an ASCII
one, because any other character beyond ASCII begins a name. -/
def gapLength : Text → Nat
  | [] => 0
  | c :: rest =>
    if isBlank c && isAscii c then
      let blanks := (rest.takeWhile isBlank).length
      1 + blanks + gapLength (rest.drop blanks)
    else
      match (if c == '/' then commentRest? rest else none) with
      | some length => length + 1 + gapLength (rest.drop length)
      | none => 0
termination_by s => s.length
decreasing_by all_goals simp only [List.length_cons, List.length_drop]; omega

/-- Whether a name is one of the given words when case is ignored. -/
def isOneOf (words : List String) (name : Text) : Bool :=
  words.any fun word => dropWord? word.toList name == some []

/-- Functions that take a selector list, by the number of colons before them. -/
def listFunction? (colons : Nat) (name : Text) : Option ListFunction :=
  if isOneOf ["host-context", "host", "slotted"] name then
    some (if colons == 2 then .slotted else .host)
  else if colons == 1
      && isOneOf ["is", "not", "has", "where", "matches", "-webkit-any", "-moz-any"] name then
    some (if lower name == "where".toList then .whereOf else .anyOf)
  else none

/-- The token that one or two colons begin, with its length behind the colons. Without an opening
parenthesis right behind its name it is a plain name, which may follow blanks and comments. -/
def colonToken? (colons : Nat) (s : Text) : Option (Token × Nat) :=
  let name := s.takeWhile isNameChar
  match name, s.drop name.length with
  | _ :: _, '(' :: rest =>
    match listFunction? colons name with
    | some function => some (.enter function, name.length + 1)
    | none =>
      (argumentsLength? 0 true rest).map fun length =>
        let content := s.take (name.length + 1 + length)
        (.simple (if colons == 2 then .elementFunction content else .pseudoFunction content),
          name.length + 1 + length)
  | _, _ =>
    let gap := gapLength s
    let word := s.drop gap
    match identifierLength word with
    | 0 => none
    | length =>
      let name := word.take length
      some (.simple (if colons == 2 then .pseudoElement name else .pseudoClass name), gap + length)

/-- The token at the front of a text that begins with the given character, and its length behind
that character. -/
def token? (c : Char) (rest : Text) : Option (Token × Nat) :=
  if c == ':' then
    match rest with
    | ':' :: more => (colonToken? 2 more).map fun (token, length) => (token, length + 1)
    | _ => colonToken? 1 rest
  else if c == '.' then
    let gap := gapLength rest
    let word := rest.drop gap
    match identifierLength word with
    | 0 => none
    | length => some (.simple (.className (word.take length)), gap + length)
  else if c == '#' then
    match nameLength rest with
    | 0 => none
    | length => some (.simple (.idName (rest.take length)), length)
  else if c == '[' then
    match attributeLength? rest with
    | none => none
    | some length =>
      if length ≤ 1 then none else some (.simple (.attribute (rest.take (length - 1))), length)
  else if c == '>' || c == '+' || c == '~' then some (.combinator, 0)
  else if c == '|' then
    match rest with
    | '|' :: _ => some (.combinator, 1)
    | _ => none
  else if c == '&' then some (.simple .nesting, 0)
  else if c == '*' then some (.simple .universal, 0)
  else if c == ',' then some (.comma, 0)
  else if c == ')' then some (.close, 0)
  else
    match identifierLength (c :: rest) with
    | 0 => none
    | length + 1 => some (.simple (.typeName ((c :: rest).take (length + 1))), length)

/-- The tokens of a text, blanks and comments between them left out. -/
def tokens? : Text → Option (List Token)
  | [] => some []
  | c :: rest =>
    match gapLength (c :: rest) with
    | extra + 1 => tokens? (rest.drop extra)
    | 0 =>
      match token? c rest with
      | none => none
      | some (token, extra) => (tokens? (rest.drop extra)).map (token :: ·)
termination_by s => s.length
decreasing_by all_goals simp only [List.length_cons, List.length_drop]; omega

end CascadeLens.Selector
