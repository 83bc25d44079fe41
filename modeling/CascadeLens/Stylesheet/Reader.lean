import CascadeLens.Stylesheet.Block
import CascadeLens.Stylesheet.Fault
import CascadeLens.Text.Bracket
import CascadeLens.Text.Case

/-! Reading a stylesheet. The reader takes one character at a time and looks at the next one. It
finds the boundaries of rules, declarations and at-rules; selectors and values stay text and are
not checked. -/

namespace CascadeLens

open Text

/-- What the reader is in the middle of. The places say where it began. -/
inductive ReadMode where
  | plain
  /-- Behind the slash that begins a comment. -/
  | commentMark (start : Place)
  | comment (start : Place)
  /-- Behind the star that ends a comment. -/
  | commentEnd
  | lineComment
  | string (quote : Char) (start : Place)
  /-- Behind a backslash inside a string. -/
  | stringEscape (quote : Char) (start : Place)
  /-- Behind a backslash. -/
  | escape
  /-- Inside an interpolation with the given number of braces open. -/
  | interpolation (depth : Nat) (start : Place)
deriving Repr, DecidableEq

/-- What an open brace belongs to. -/
inductive LevelKind where
  | sheet
  | style (selector : Text) (order : Nat)
  /-- A conditional at-rule outside of style rules. -/
  | group
  /-- A conditional at-rule inside a style rule. Declarations directly in it form a rule. -/
  | nestedGroup (order : Nat)
  /-- A block that is passed over with the given number of braces open inside of it, and the
  at-rule it is kept for, if any. -/
  | passed (depth : Nat) (keep : Option AtRule)
deriving Repr, DecidableEq

/-- An open brace and what has been read behind it. Lists are in reverse. -/
structure Level where
  kind : LevelKind
  /-- At-rules around the contents. -/
  atRules : List AtRule
  /-- Where the block starts, which is where a missing closing brace is reported. -/
  start : Place
  declarations : List RawDeclaration := []
  blocks : List BlockTree := []
  /-- The item begun, and the place of its first character that is not blank. -/
  item : Text := []
  itemStart : Option Place := none
  parens : Nat := 0

structure SheetReader where
  here : Place := {}
  mode : ReadMode := .plain
  level : Level := { kind := .sheet, atRules := [], start := {} }
  /-- Levels around the innermost one, from the inside out. -/
  outer : List Level := []
  /-- The number of style blocks begun so far. -/
  count : Nat := 0
  keyframes : List FoundAtBlock := []
  properties : List FoundAtBlock := []

/-- At-rules whose block holds rules, and inside a style rule declarations, that still apply to
the selector around them. Control flow and mixin content are among them. -/
def groupNames : List String :=
  ["media", "supports", "container", "layer", "scope", "document", "-moz-document",
    "starting-style", "include", "if", "else", "each", "for", "while"]

def keyframesNames : List String :=
  ["keyframes", "-webkit-keyframes", "-moz-keyframes", "-o-keyframes"]

/-- The at-rule a prelude spells. The name is empty where none follows the sign. -/
def atRuleOf (behind : Text) : AtRule :=
  let name := behind.takeWhile isNameChar
  if name.isEmpty then ⟨[], []⟩ else ⟨lower name, spaced (behind.drop name.length)⟩

namespace Level

def isPassed (level : Level) : Bool :=
  match level.kind with
  | .passed .. => true
  | _ => false

def inStyle (level : Level) : Bool :=
  match level.kind with
  | .style .. | .nestedGroup .. => true
  | _ => false

def keep (level : Level) (c : Char) : Level := { level with item := c :: level.item }

/-- Takes note of the first character of an item. -/
def begin (level : Level) (here : Place) (c : Char) : Level :=
  if level.itemStart.isNone && !isBlank c then
    { level with itemStart := some here }
  else level

def clear (level : Level) : Level := { level with item := [], itemStart := none }

/-- Ends a declaration. A blank one is dropped. -/
def flush (level : Level) : Level :=
  match level.itemStart, trim level.item.reverse with
  | some start, c :: rest =>
    { level.clear with declarations := ⟨c :: rest, start.line⟩ :: level.declarations }
  | _, _ => level.clear

/-- The level that a brace opens behind the item of this one. -/
def inner (level : Level) (here : Place) (count : Nat) : Level :=
  let opened (kind : LevelKind) (atRules : List AtRule) : Level :=
    { kind, atRules, start := level.itemStart.getD here }
  match trim level.item.reverse with
  | '@' :: behind =>
    let rule := atRuleOf behind
    let isNamed (names : List String) := names.any (·.toList == rule.name)
    if isNamed ("property" :: keyframesNames) then opened (.passed 0 (some rule)) level.atRules
    else if isNamed groupNames then
      opened (if level.inStyle then .nestedGroup count else .group) (level.atRules ++ [rule])
    else opened (.passed 0 none) level.atRules
  | prelude => opened (.style (spaced prelude) count) level.atRules

/-- The style block of a level that ends with the character here. -/
def found (level : Level) (selector : Text) (order : Nat) (here : Place) : FoundBlock where
  selector := selector
  atRules := level.atRules
  start := level.start.offset
  stop := here.offset + 1
  startLine := level.start.line
  endLine := here.line
  order := order
  declarations := level.declarations.reverse

/-- What a level that ends with the character here gives to the level around it. -/
def close (level around : Level) (here : Place) : Level :=
  match level.kind with
  | .style selector order =>
    let tree := .node (level.found selector order here) level.blocks.reverse
    { around with blocks := tree :: around.blocks }
  | .nestedGroup order =>
    let own : List BlockTree :=
      if level.declarations.isEmpty then [] else [.node (level.found ['&'] order here) []]
    { around with blocks := level.blocks ++ own ++ around.blocks }
  | .group =>
    { around with
      blocks := level.blocks ++ around.blocks
      declarations := level.declarations ++ around.declarations }
  | .sheet | .passed .. => around

end Level

namespace SheetReader

/-- Enters the block behind an opening brace here. -/
def enter (reader : SheetReader) : SheetReader :=
  let level := reader.level.inner reader.here reader.count
  { reader with
    level
    outer := reader.level.clear :: reader.outer
    count := if level.inStyle then reader.count + 1 else reader.count }

/-- Leaves a block that is passed over, and keeps it if it is of a kind to be kept. -/
def leavePassed (reader : SheetReader) (keep : Option AtRule) : SheetReader :=
  match reader.outer with
  | [] => reader
  | around :: outer =>
    let left := { reader with level := around, outer }
    match keep with
    | none => left
    | some rule =>
      let block : FoundAtBlock :=
        { name := rule.name, params := rule.params, atRules := around.atRules,
          start := reader.level.start.offset, stop := reader.here.offset + 1,
          startLine := reader.level.start.line, endLine := reader.here.line }
      if rule.name == "property".toList then { left with properties := block :: left.properties }
      else { left with keyframes := block :: left.keyframes }

/-- Leaves a block at its closing brace here. -/
def leave (reader : SheetReader) : Except Fault SheetReader :=
  match reader.outer with
  | [] => .error (reader.here.fault .unexpectedBrace)
  | around :: outer =>
    .ok { reader with level := reader.level.flush.close around reader.here, outer }

/-- A character of a block that is passed over. Parentheses do not hide braces in it. -/
def passOver (reader : SheetReader) (depth : Nat) (keep : Option AtRule) (c : Char) : SheetReader :=
  let level := reader.level
  if c == '(' then { reader with level := { level with parens := level.parens + 1 } }
  else if c == ')' then { reader with level := { level with parens := level.parens - 1 } }
  else if c == '\x7b' then { reader with level := { level with kind := .passed (depth + 1) keep } }
  else if c == '\x7d' then
    match depth with
    | 0 => reader.leavePassed keep
    | depth + 1 => { reader with level := { level with kind := .passed depth keep } }
  else reader

/-- A character of a block that is read. Semicolons and braces count outside parentheses only. -/
def takeIn (reader : SheetReader) (c : Char) : Except Fault SheetReader :=
  let level := reader.level
  if c == '(' then .ok { reader with level := { level.keep c with parens := level.parens + 1 } }
  else if c == ')' then
    .ok { reader with level := { level.keep c with parens := level.parens - 1 } }
  else if level.parens == 0 && c == ';' then .ok { reader with level := level.flush }
  else if level.parens == 0 && c == '\x7b' then .ok reader.enter
  else if level.parens == 0 && c == '\x7d' then reader.leave
  else .ok { reader with level := level.keep c }

/-- A character outside comments, strings, escapes and interpolations. -/
def readPlain (lineComments : Bool) (reader : SheetReader) (c : Char) (next : Option Char) :
    Except Fault SheetReader :=
  if c == '/' && next == some '*' then
    .ok { reader with level := reader.level.keep ' ', mode := .commentMark reader.here }
  else if c == '/' && next == some '/' && lineComments && reader.level.parens == 0 then
    .ok { reader with mode := .lineComment }
  else
    let reader := { reader with level := reader.level.begin reader.here c }
    let kept := reader.level.keep c
    if isQuote c then .ok { reader with level := kept, mode := .string c reader.here }
    else if c == '\\' then .ok { reader with level := kept, mode := .escape }
    else
      match reader.level.kind with
      | .passed depth keep => .ok (reader.passOver depth keep c)
      | _ =>
        if c == '#' && next == some '\x7b' then
          .ok { reader with level := kept, mode := .interpolation 0 reader.here }
        else reader.takeIn c

/-- Reads one character in the mode the reader is in. -/
def read (lineComments : Bool) (reader : SheetReader) (c : Char) (next : Option Char) :
    Except Fault SheetReader :=
  let kept := reader.level.keep c
  match reader.mode with
  | .plain => reader.readPlain lineComments c next
  | .commentMark start => .ok { reader with mode := .comment start }
  | .comment _ =>
    .ok (if c == '*' && next == some '/' then { reader with mode := .commentEnd } else reader)
  | .commentEnd => .ok { reader with mode := .plain }
  | .lineComment =>
    if c == '\n' then { reader with mode := .plain }.readPlain lineComments c next else .ok reader
  | .string quote start =>
    if c == '\\' then .ok { reader with level := kept, mode := .stringEscape quote start }
    else if c == quote then .ok { reader with level := kept, mode := .plain }
    else if c == '\n' then .error (start.fault .unclosedString)
    else .ok { reader with level := kept }
  | .stringEscape quote start => .ok { reader with level := kept, mode := .string quote start }
  | .escape => .ok { reader with level := kept, mode := .plain }
  | .interpolation depth start =>
    let reader := { reader with level := kept }
    if c == '\x7b' then .ok { reader with mode := .interpolation (depth + 1) start }
    else if c == '\x7d' && depth ≤ 1 then .ok { reader with mode := .plain }
    else if c == '\x7d' then .ok { reader with mode := .interpolation (depth - 1) start }
    else .ok reader

/-- Reads one character and moves behind it. -/
def step (lineComments : Bool) (reader : SheetReader) (c : Char) (next : Option Char) :
    Except Fault SheetReader :=
  (reader.read lineComments c next).map fun after => { after with here := reader.here.after c }

def run (lineComments : Bool) (reader : SheetReader) : Text → Except Fault SheetReader
  | [] => .ok reader
  | c :: rest =>
    match reader.step lineComments c rest.head? with
    | .error fault => .error fault
    | .ok reader => reader.run lineComments rest

/-- Ends the reading. Whatever is open is a fault. -/
def finish (reader : SheetReader) : Except Fault Findings :=
  match reader.mode with
  | .commentMark start | .comment start => .error (start.fault .unclosedComment)
  | .string _ start | .stringEscape _ start => .error (start.fault .unclosedString)
  | .interpolation _ start => .error (start.fault .unclosedInterpolation)
  | .plain | .commentEnd | .lineComment | .escape =>
    match reader.outer with
    | _ :: _ => .error (reader.level.start.fault .unclosedBlock)
    | [] =>
      let level := reader.level.flush
      .ok ⟨level.blocks.reverse, reader.keyframes.reverse, reader.properties.reverse,
        level.declarations.reverse⟩

end SheetReader

/-- All that is found in the text of a stylesheet. -/
def Findings.read (dialect : Dialect) (source : Text) : Except Fault Findings :=
  match SheetReader.run dialect.hasLineComments {} source with
  | .error fault => .error fault
  | .ok reader => reader.finish

/-- The stylesheet a text spells. -/
def Stylesheet.parse (source name : Text) (dialect : Dialect) : Except Fault Stylesheet :=
  match Findings.read dialect source with
  | .error fault => .error fault
  | .ok findings => .ok {
      name
      dialect
      rules := rulesOf source name [] findings.blocks
      keyframes := findings.keyframes.map (·.atBlock source name)
      properties := findings.properties.map (·.atBlock source name)
      declarations := findings.declarations }

end CascadeLens
