import CascadeLens.Text.Case
import CascadeLens.Text.Find

/-! Patterns of text and where they occur. -/

namespace CascadeLens

open Text

/-- A way to write patterns: the texts that are patterns, with the test that each stands for. -/
abbrev PatternLanguage := Text → Option (Text → Bool)

/-- A class of characters. The first three may be told to keep to ASCII. -/
inductive CharClass where
  | decimal (ascii : Bool)
  | word (ascii : Bool)
  | blank (ascii : Bool)
  /-- The characters from one code up to another. -/
  | range (first last : Nat)
  | not (other : CharClass)
deriving Repr, DecidableEq

def CharClass.holds (c : Char) : CharClass → Bool
  | decimal ascii => isDecimal c && (!ascii || c.toNat < 128)
  | word ascii => isWord c && (!ascii || c.toNat < 128)
  | blank ascii => if ascii then c == ' ' || ('\t' ≤ c && c ≤ '\r') else isBlank c
  | range first last => first ≤ c.toNat && c.toNat ≤ last
  | not other => !other.holds c

/-- Whether letters are told apart by their case: all of them, all but those of ASCII, or none. -/
inductive Casing where
  | exact
  | ascii
  | ignored
deriving Repr, DecidableEq

namespace Casing

/-- All characters that count as the given one. -/
def forms (c : Char) : Casing → List Char
  | exact => [c]
  | ascii => if c.isAlpha then [c.toLower, c.toUpper] else [c]
  | ignored => letterForms c

/-- Whether two characters of a text count as one when the text comes again. -/
def same (a b : Char) : Casing → Bool
  | exact => a == b
  | ascii => a.toLower == b.toLower
  | ignored => lowerChar a == lowerChar b

end Casing

/-- Whether a character belongs to a class. Case matters for single characters and ranges only. -/
def CharClass.accepts (casing : Casing) (c : Char) : CharClass → Bool
  | range first last => (casing.forms c).any fun form => first ≤ form.toNat && form.toNat ≤ last
  | other => other.holds c

/-- How a repetition goes on: as far as possible first, as little as possible first, or as far as
possible without taking anything back. -/
inductive Appetite where
  | greedy
  | lazy
  | possessive
deriving Repr, DecidableEq

inductive Pattern where
  | empty
  /-- One character of a class, or of none of them. -/
  | oneOf (casing : Casing) (negated : Bool) (classes : List CharClass)
  | both (first second : Pattern)
  | either (first second : Pattern)
  /-- At least `min` times, and at most `max` times if that is given. -/
  | times (body : Pattern) (min : Nat) (max : Option Nat) (appetite : Appetite)
  /-- The first way to read the body, and no other. -/
  | atomic (body : Pattern)
  /-- A group with a number, which remembers what was read. -/
  | group (number : Nat) (body : Pattern)
  /-- What a group has read, once more. -/
  | again (casing : Casing) (number : Nat)
  /-- One pattern if a group has read something, and another if not. -/
  | given (number : Nat) (yes no : Pattern)
  | atStart
  /-- At the start, or behind a line feed. -/
  | atLineStart
  /-- At the end, or in front of a line feed. -/
  | atLineEnd
  /-- At the end, or in front of a line feed there. -/
  | atLastLine
  | atEnd
  | atWordEdge (ascii negated : Bool)
  | ahead (negated : Bool) (body : Pattern)
  /-- Behind what takes up the given width. -/
  | precededBy (negated : Bool) (width : Nat) (body : Pattern)
deriving Repr, DecidableEq

/-- How many characters something takes up: at least so many, and at most so many if there is a
bound. -/
structure Span where
  low : Nat := 0
  high : Option Nat := some 0
deriving Repr, DecidableEq

namespace Span

def add (a b : Span) : Span := ⟨a.low + b.low, do return (← a.high) + (← b.high)⟩

/-- One of the two. -/
def join (a b : Span) : Span := ⟨min a.low b.low, do return max (← a.high) (← b.high)⟩

def times (span : Span) (least : Nat) (most : Option Nat) : Span :=
  { low := span.low * least
    high := if span.high == some 0 || most == some 0 then some 0 else do return (← span.high) * (← most) }

/-- The width of what always takes up the same number of characters. -/
def width? (span : Span) : Option Nat := if span.high == some span.low then some span.low else none

end Span

namespace Pattern

/-- The characters that a pattern takes up, where the groups in front of it take up so many. -/
def span (groups : List (Nat × Span)) : Pattern → Span
  | oneOf .. => ⟨1, some 1⟩
  | both first second => (first.span groups).add (second.span groups)
  | either first second => (first.span groups).join (second.span groups)
  | times body min max _ => (body.span groups).times min max
  | atomic body => body.span groups
  | group _ body => body.span groups
  | again _ number => (groups.lookup number).getD {}
  | given _ yes no => (yes.span groups).join (no.span groups)
  | _ => {}

/-- How far a text has been read: what is left of it, and what was left where each group began and
where it ended. -/
structure Progress where
  rest : Text
  begun : List (Nat × Text) := []
  ended : List (Nat × Text) := []
deriving Repr, DecidableEq

namespace Progress

def enter (place : Progress) (number : Nat) : Progress :=
  { place with begun := (number, place.rest) :: place.begun }

def leave (place : Progress) (number : Nat) : Progress :=
  { place with ended := (number, place.rest) :: place.ended }

/-- What a group has read when it was last left. -/
def read? (place : Progress) (number : Nat) : Option Text :=
  match place.begun.lookup number, place.ended.lookup number with
  | some begun, some ended =>
    if ended.length ≤ begun.length then some (begun.take (begun.length - ended.length)) else none
  | _, _ => none

/-- Behind a text that comes next. -/
def behind? (place : Progress) (casing : Casing) (s : Text) : Option Progress :=
  let next := place.rest.take s.length
  if next.length == s.length && (s.zip next).all (fun (a, b) => casing.same a b) then
    some { place with rest := place.rest.drop s.length }
  else none

end Progress

/-- Where repeating a step may lead to, at least `min` times and up to `more` times again. A further
round that takes nothing is the last one. -/
def repeated (step : Progress → List Progress) (lazily : Bool) : Nat → Nat → Progress → List Progress
  | 0, 0, place => [place]
  | 0, more + 1, place =>
    let further := (step place).flatMap fun after =>
      if after.rest.length < place.rest.length then repeated step lazily 0 more after else [after]
    if lazily then place :: further else further ++ [place]
  | min + 1, more, place => (step place).flatMap (repeated step lazily min more)

/-- The character before the rest of a text. -/
def charBefore? (whole rest : Text) : Option Char :=
  (whole.take (whole.length - rest.length)).getLast?

/-- Whether exactly one side of a place in a text is a character of a word. -/
def wordEdge (ascii : Bool) (whole rest : Text) : Bool :=
  (charBefore? whole rest).any ((CharClass.word ascii).holds ·)
    != rest.head?.any ((CharClass.word ascii).holds ·)

/-- Stays where it is or goes nowhere. -/
def Progress.only (place : Progress) (holds : Bool) : List Progress := if holds then [place] else []

/-- Where reading a pattern may lead to, the preferred way first. -/
def ways (whole : Text) : Pattern → Progress → List Progress
  | empty, place => [place]
  | oneOf casing negated classes, place =>
    match place.rest with
    | [] => []
    | c :: rest => { place with rest }.only (classes.any (·.accepts casing c) != negated)
  | both first second, place => (first.ways whole place).flatMap (second.ways whole)
  | either first second, place => first.ways whole place ++ second.ways whole place
  | times body min max appetite, place =>
    let more :=
      match max with
      | some max => max - min
      | none => place.rest.length + 1
    match appetite with
    | .greedy => repeated (body.ways whole) false min more place
    | .lazy => repeated (body.ways whole) true min more place
    | .possessive => repeated (fun place => (body.ways whole place).take 1) false min more place |>.take 1
  | atomic body, place => (body.ways whole place).take 1
  | group number body, place => (body.ways whole (place.enter number)).map (·.leave number)
  | again casing number, place =>
    match place.read? number with
    | none => []
    | some s => (place.behind? casing s).toList
  | given number yes no, place =>
    if (place.read? number).isSome then yes.ways whole place else no.ways whole place
  | atStart, place => place.only (place.rest.length == whole.length)
  | atLineStart, place => place.only ((charBefore? whole place.rest).all (· == '\n'))
  | atLineEnd, place => place.only (place.rest.head?.all (· == '\n'))
  | atLastLine, place => place.only (place.rest == [] || place.rest == ['\n'])
  | atEnd, place => place.only (place.rest == [])
  | atWordEdge ascii negated, place =>
    place.only (!whole.isEmpty && wordEdge ascii whole place.rest != negated)
  | ahead negated body, place =>
    match body.ways whole place with
    | [] => place.only negated
    | after :: _ => { after with rest := place.rest }.only (!negated)
  | precededBy negated width body, place =>
    let before := whole.length - place.rest.length
    let found :=
      if width ≤ before then body.ways whole { place with rest := whole.drop (before - width) }
      else []
    match found with
    | [] => place.only negated
    | after :: _ => { after with rest := place.rest }.only (!negated)

/-- Whether a pattern occurs in the rest of a text or behind it. -/
def occursFrom (pattern : Pattern) (whole : Text) : Text → Bool
  | [] => !(pattern.ways whole { rest := [] }).isEmpty
  | c :: rest =>
    !(pattern.ways whole { rest := c :: rest }).isEmpty || occursFrom pattern whole rest

/-- Whether a pattern occurs anywhere in a text. -/
def occursIn (pattern : Pattern) (s : Text) : Bool := pattern.occursFrom s s

end Pattern

end CascadeLens
