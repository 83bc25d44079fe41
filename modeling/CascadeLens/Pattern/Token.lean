import CascadeLens.Pattern.Basic
import CascadeLens.Pattern.GroupName

/-! The pieces that a pattern in its written form consists of. -/

namespace CascadeLens.Pattern

open Text

/-- How characters and places are meant. -/
structure Modes where
  anyCase : Bool := false
  /-- Classes of characters, and letters in any case, keep to ASCII. -/
  ascii : Bool := false
  /-- A dot stands for line feeds too. -/
  dotAll : Bool := false
  /-- Every line has a start and an end. -/
  eachLine : Bool := false
  /-- Blanks and remarks between the pieces do not count. -/
  spaced : Bool := false
deriving Repr, DecidableEq

namespace Modes

/-- A mode turned on or off. Those for characters of ASCII and of all scripts exclude each other and
cannot be turned off. -/
def turn? (value : Bool) (modes : Modes) : Char → Option Modes
  | 'i' => some { modes with anyCase := value }
  | 's' => some { modes with dotAll := value }
  | 'm' => some { modes with eachLine := value }
  | 'x' => some { modes with spaced := value }
  | 'a' => if value then some { modes with ascii := true } else none
  | 'u' => if value then some { modes with ascii := false } else none
  | _ => none

def turnAll? (value : Bool) (modes : Modes) (letters : Text) : Option Modes :=
  if letters.contains 'a' && letters.contains 'u' then none else letters.foldlM (turn? value) modes

/-- The modes inside of a group, some turned on and others off behind a hyphen, and the length of
their letters with the colon. -/
def ofGroup? (modes : Modes) (s : Text) : Option (Modes × Nat) :=
  let on := s.takeWhile Char.isAlpha
  match s.drop on.length with
  | ':' :: _ => (modes.turnAll? true on).map (·, on.length + 1)
  | '-' :: rest =>
    let off := rest.takeWhile Char.isAlpha
    if off.isEmpty || off.any on.contains || (rest.drop off.length).head? != some ':' then none
    else
      ((modes.turnAll? true on).bind (turnAll? false · off)).map (·, on.length + off.length + 2)
  | _ => none

def casing (modes : Modes) : Casing :=
  if modes.anyCase then if modes.ascii then .ascii else .ignored else .exact

/-- The character of a code. -/
def literal (modes : Modes) (code : Nat) : Pattern := oneOf modes.casing false [.range code code]

/-- Any character, but for a line feed if that is left out. -/
def dot (modes : Modes) : Pattern :=
  oneOf .exact true (if modes.dotAll then [] else [.range 10 10])

end Modes

/-- A group as it is referred to. -/
inductive GroupReference where
  | number (number : Nat)
  | name (name : Text)
deriving Repr, DecidableEq

/-- What a parenthesis opens. -/
inductive GroupKind where
  | plain
  /-- A group that is counted and remembers what it reads, perhaps with a name. -/
  | counted (name : Option Text)
  /-- A group that gives nothing back. -/
  | atomic
  | ahead (negated : Bool)
  | behind (negated : Bool)
  /-- Two alternatives, the first of them for the case that another group has read something. -/
  | given (reference : GroupReference)
deriving Repr, DecidableEq

inductive Token where
  /-- Something that stands for characters. -/
  | atom (pattern : Pattern)
  /-- Something that stands for a place. -/
  | place (pattern : Pattern)
  /-- What a group has read, once more. -/
  | again (casing : Casing) (reference : GroupReference)
  /-- Opens a group, in which other modes may hold. -/
  | enter (kind : GroupKind) (inside : Modes)
  | leave
  | comment
  | bar
  | times (min : Nat) (max : Option Nat) (appetite : Appetite)

section Codes

/-- The code that a backslash and a letter stand for. -/
def controlCode? (c : Char) : Option Nat :=
  [('n', 10), ('t', 9), ('r', 13), ('a', 7), ('f', 12), ('v', 11)].lookup c

/-- The class that a backslash and a letter stand for. -/
def namedClass? (ascii : Bool) (c : Char) : Option CharClass :=
  [('d', .decimal ascii), ('D', .not (.decimal ascii)), ('w', .word ascii), ('W', .not (.word ascii)),
    ('s', .blank ascii), ('S', .not (.blank ascii))].lookup c

/-- The code that a text begins with, written in so many hexadecimal digits behind a letter, and the
length of both. -/
def hexCoded? (width : Nat) (s : Text) : Option (Nat × Nat) :=
  let digits := s.take width
  let code := hexNumber digits
  if digits.length == width && digits.all isHexDigit && code < 0x110000 then some (code, width + 1)
  else none

def isOctal (c : Char) : Bool := '0' ≤ c && c ≤ '7'

def octalNumber (digits : Text) : Nat :=
  digits.foldl (fun value c => 8 * value + hexValue c) 0

/-- The code that begins with an octal digit, and its length. Three digits at most, and a byte. -/
def octalCoded? (s : Text) : Option (Nat × Nat) :=
  let digits := (s.take 3).takeWhile isOctal
  if octalNumber digits < 256 then some (octalNumber digits, digits.length) else none

variable (named : Text → Option Char)

/-- The character whose name stands in braces behind a letter, and the length of all that. -/
def nameCoded? : Text → Option (Nat × Nat)
  | '\x7b' :: rest =>
    let name := rest.takeWhile (· != '\x7d')
    if name.contains '\\' || name.length == rest.length then none
    else (named name).map fun c => (c.toNat, name.length + 3)
  | _ => none

/-- The code that a backslash and a letter stand for, with more behind them, and its length. -/
def coded? : Text → Option (Nat × Nat)
  | 'x' :: rest => hexCoded? 2 rest
  | 'u' :: rest => hexCoded? 4 rest
  | 'U' :: rest => hexCoded? 8 rest
  | 'N' :: rest => nameCoded? named rest
  | c :: _ => (controlCode? c).map (·, 1)
  | [] => none

end Codes

section Brackets

variable (named : Text → Option Char) (ascii : Bool)

/-- What a backslash stands for inside brackets, and the length of what follows it. Letters without
a meaning and numbers of no character are refused. -/
def escapedMember? (s : Text) : Option ((CharClass ⊕ Nat) × Nat) :=
  match s with
  | [] => none
  | c :: _ =>
    if isOctal c then (octalCoded? s).map fun (code, length) => (.inr code, length)
    else
      match coded? named s, namedClass? ascii c with
      | some (code, length), _ => some (.inr code, length)
      | none, some found => some (.inl found, 1)
      | none, none =>
        if c == 'b' then some (.inr 8, 1) else if c.isAlphanum then none else some (.inr c.toNat, 1)

/-- One member at the front of a bracket expression, and its length. -/
def member? : Text → Option ((CharClass ⊕ Nat) × Nat)
  | [] => none
  | '\\' :: rest => (escapedMember? named ascii rest).map fun (found, length) => (found, length + 1)
  | c :: _ => some (.inr c.toNat, 1)

def classOf : CharClass ⊕ Nat → CharClass
  | .inl found => found
  | .inr code => .range code code

/-- The classes of a bracket expression behind its opening, and its length with the closing bracket.
A closing bracket that comes first is a member. -/
def members? (first : Bool) : Text → Option (List CharClass × Nat)
  | [] => none
  | c :: rest =>
    if c == ']' && !first then some ([], 1)
    else
      match member? named ascii (c :: rest) with
      | none => none
      | some (low, length) =>
        match shape : rest.drop (length - 1) with
        | '-' :: high :: more =>
          if high == ']' then
            (members? false ('-' :: high :: more)).map fun (found, taken) =>
              (classOf low :: found, taken + length)
          else
            match low, member? named ascii (high :: more) with
            | .inr low, some (.inr high, width) =>
              if high < low then none
              else
                (members? false (more.drop (width - 1))).map fun (found, taken) =>
                  (.range low high :: found, taken + length + 1 + width)
            | _, _ => none
        | behind =>
          (members? false behind).map fun (found, taken) => (classOf low :: found, taken + length)
termination_by s => s.length
decreasing_by
  all_goals
    have size := congrArg List.length shape
    simp only [List.length_cons, List.length_drop] at size ⊢
    omega

end Brackets

section Repetitions

/-- The largest number that a pattern can hold, too large already for a repetition. -/
def largest : Nat := 4294967295

/-- A number in plain digits, `none` if there is none. -/
def count? (digits : Text) : Option Nat :=
  if digits.isEmpty then none else some (decimalNumber digits)

/-- The bounds in braces behind the opening one, and their length with the closing one. A single
number is both bounds. -/
def bounds? (s : Text) : Option (Nat × Option Nat × Nat) :=
  let low := s.takeWhile Char.isDigit
  match s.drop low.length with
  | '\x7d' :: _ =>
    if low.isEmpty then none else some (decimalNumber low, count? low, low.length + 1)
  | ',' :: rest =>
    let high := rest.takeWhile Char.isDigit
    match rest.drop high.length with
    | '\x7d' :: _ => some (decimalNumber low, count? high, low.length + high.length + 2)
    | _ => none
  | _ => none

/-- The sign behind a repetition that says how it goes on, and its length. -/
def appetite : Text → Appetite × Nat
  | '?' :: _ => (.lazy, 1)
  | '+' :: _ => (.possessive, 1)
  | _ => (.greedy, 0)

def timesToken (min : Nat) (max : Option Nat) (length : Nat) (behind : Text) : Token × Nat :=
  let (mood, sign) := appetite behind
  (.times min max mood, length + sign)

end Repetitions

section Groups

/-- The length of a remark with the sign that ends it. Some remarks may be left open at the end of a
pattern. An escaped sign does not end them. -/
def remark? (sign : Char) (mayStayOpen : Bool) : Text → Option Nat
  | [] => if mayStayOpen then some 0 else none
  | ['\\'] => none
  | '\\' :: _ :: rest => (remark? sign mayStayOpen rest).map (· + 2)
  | c :: rest => if c == sign then some 1 else (remark? sign mayStayOpen rest).map (· + 1)

/-- A group's name up to a sign that has to follow it, `none` if it is no name. -/
def nameUpTo? (sign : Char) (s : Text) : Option Text :=
  let name := s.takeWhile (· != sign)
  if isGroupName name && (s.drop name.length).head? == some sign then some name else none

/-- The group that a condition is about, by name or by number. -/
def condition? (s : Text) : Option (GroupReference × Nat) :=
  match nameUpTo? ')' s with
  | some name => some (.name name, name.length)
  | none =>
    let digits := s.takeWhile Char.isDigit
    if (s.drop digits.length).head? == some ')' then
      (count? digits).map fun number => (.number number, digits.length)
    else none

/-- What a parenthesis opens, and the length of the signs behind it. Remarks and references by name
look like groups. -/
def group? (modes : Modes) (s : Text) : Option (Token × Nat) :=
  let opened (kind : GroupKind) (length : Nat) : Option (Token × Nat) :=
    some (.enter kind modes, length)
  match s with
  | '?' :: '=' :: _ => opened (.ahead false) 2
  | '?' :: '!' :: _ => opened (.ahead true) 2
  | '?' :: '<' :: '=' :: _ => opened (.behind false) 3
  | '?' :: '<' :: '!' :: _ => opened (.behind true) 3
  | '?' :: '>' :: _ => opened .atomic 2
  | '?' :: '#' :: rest => (remark? ')' false rest).map fun length => (.comment, length + 2)
  | '?' :: 'P' :: '<' :: rest => do
    let name ← nameUpTo? '>' rest
    opened (.counted (some name)) (name.length + 4)
  | '?' :: 'P' :: '=' :: rest => do
    let name ← nameUpTo? ')' rest
    return (.again modes.casing (.name name), name.length + 4)
  | '?' :: '(' :: rest => do
    let (reference, length) ← condition? rest
    opened (.given reference) (length + 3)
  | '?' :: rest => (modes.ofGroup? rest).map fun (inside, length) =>
    (.enter .plain inside, length + 1)
  | _ => opened (.counted none) 0

end Groups

section Tokens

variable (named : Text → Option Char)

/-- What a backslash and a digit stand for, and their length. Three octal digits are a code, as is
what begins with a zero, and other numbers refer to a group. -/
def numbered? (modes : Modes) (s : Text) : Option (Token × Nat) :=
  let digits := (s.take 3).takeWhile Char.isDigit
  if s.head? == some '0' || (digits.length == 3 && digits.all isOctal) then
    (octalCoded? s).map fun (code, length) => (.atom (modes.literal code), length)
  else
    let number := digits.take 2
    some (.again modes.casing (.number (decimalNumber number)), number.length)

/-- What a backslash stands for outside brackets, and the length of what follows it. -/
def escaped? (modes : Modes) (s : Text) : Option (Token × Nat) :=
  match s with
  | [] => none
  | c :: _ =>
    if c.isDigit then numbered? modes s
    else
      match coded? named s, namedClass? modes.ascii c with
      | some (code, length), _ => some (.atom (modes.literal code), length)
      | none, some found => some (.atom (oneOf modes.casing false [found]), 1)
      | none, none =>
        if c == 'b' then some (.place (atWordEdge modes.ascii false), 1)
        else if c == 'B' then some (.place (atWordEdge modes.ascii true), 1)
        else if c == 'A' then some (.place atStart, 1)
        else if c == 'Z' then some (.place atEnd, 1)
        else if c.isAlphanum then none
        else some (.atom (modes.literal c.toNat), 1)

/-- The token that begins with a character, and its length behind it. -/
def token? (modes : Modes) (c : Char) (rest : Text) : Option (Token × Nat) :=
  if c == '^' then some (.place (if modes.eachLine then atLineStart else atStart), 0)
  else if c == '$' then some (.place (if modes.eachLine then atLineEnd else atLastLine), 0)
  else if c == '.' then some (.atom modes.dot, 0)
  else if c == '|' then some (.bar, 0)
  else if c == ')' then some (.leave, 0)
  else if c == '(' then group? modes rest
  else if c == '*' then some (timesToken 0 none 0 rest)
  else if c == '+' then some (timesToken 1 none 0 rest)
  else if c == '?' then some (timesToken 0 (some 1) 0 rest)
  else if c == '\x7b' then
    match bounds? rest with
    | none => some (.atom (modes.literal c.toNat), 0)
    | some (min, max, length) =>
      if max.any (· < min) || largest ≤ max.getD min then none
      else some (timesToken min max length (rest.drop length))
  else if c == '[' then
    match rest with
    | '^' :: more =>
      (members? named modes.ascii true more).map fun (found, length) =>
        (.atom (oneOf modes.casing true found), length + 1)
    | _ =>
      (members? named modes.ascii true rest).map fun (found, length) =>
        (.atom (oneOf modes.casing false found), length)
  else if c == '\\' then escaped? named modes rest
  else some (.atom (modes.literal c.toNat), 0)

/-- The modes that hold behind a token, and around it those of the groups that are open. -/
def Token.modesBehind (modes : Modes) (outer : List Modes) : Token → Modes × List Modes
  | enter _ inside => (inside, modes :: outer)
  | leave =>
    match outer with
    | [] => (modes, [])
    | around :: outer => (around, outer)
  | _ => (modes, outer)

/-- What may stand between the pieces of a pattern where that is allowed. -/
def isGap (c : Char) : Bool := c == ' ' || ('\t' ≤ c && c ≤ '\r')

def tokens? (modes : Modes) (outer : List Modes) : Text → Option (List Token)
  | [] => some []
  | c :: rest =>
    if modes.spaced && isGap c then tokens? modes outer rest
    else if modes.spaced && c == '#' then
      match remark? '\n' true rest with
      | none => none
      | some length => tokens? modes outer (rest.drop length)
    else
      match token? named modes c rest with
      | none => none
      | some (token, extra) =>
        let (modes, outer) := token.modesBehind modes outer
        (tokens? modes outer (rest.drop extra)).map (token :: ·)
termination_by s => s.length
decreasing_by all_goals simp only [List.length_cons, List.length_drop]; omega

/-- The letters of the modes at the front of a pattern, which hold for all of it, with those that
have been read, and what follows them. -/
def leading? (letters : Text) : Text → Option (Text × Text)
  | [] => some (letters, [])
  | '(' :: '?' :: '#' :: rest =>
    match remark? ')' false rest with
    | none => none
    | some length => leading? letters (rest.drop length)
  | '(' :: '?' :: rest =>
    let more := rest.takeWhile Char.isAlpha
    if !more.isEmpty && (rest.drop more.length).head? == some ')' then
      leading? (letters ++ more) (rest.drop (more.length + 1))
    else some (letters, '(' :: '?' :: rest)
  | c :: rest =>
    if letters.contains 'x' && isGap c then leading? letters rest
    else if letters.contains 'x' && c == '#' then
      match remark? '\n' true rest with
      | none => none
      | some length => leading? letters (rest.drop length)
    else some (letters, c :: rest)
termination_by s => s.length
decreasing_by all_goals simp only [List.length_cons, List.length_drop]; omega

end Tokens

end CascadeLens.Pattern
