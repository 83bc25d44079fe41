import CascadeLens.Pattern.Token

/-! Patterns in their written form: the pieces are put together, and every reference to a group is
checked against the groups in front of it. -/

namespace CascadeLens.Pattern

open Text

/-- What may be said of the last item of a sequence: whether it may be repeated. -/
inductive Repeatable where
  | yes
  | never
deriving DecidableEq

/-- A group being read: the alternatives before, the latest first, and the sequence begun with its
last item apart. -/
structure Unfinished where
  before : List Pattern := []
  sequence : Pattern := .empty
  last : Option (Pattern × Repeatable) := none

namespace Unfinished

def run (group : Unfinished) : Pattern :=
  match group.last with
  | none => group.sequence
  | some (last, _) => .both group.sequence last

def push (group : Unfinished) (item : Pattern) (repeatable : Repeatable) : Unfinished :=
  { group with sequence := group.run, last := some (item, repeatable) }

/-- Begins the next alternative. -/
def bar (group : Unfinished) : Unfinished := { before := group.run :: group.before }

def whole (group : Unfinished) : Pattern :=
  group.before.foldl (fun later earlier => .either earlier later) group.run

end Unfinished

/-- A group that is open, with what there is to know of it when it is left. -/
inductive Enclosure where
  | plain
  | counted (number : Nat)
  | atomic
  | ahead (negated : Bool)
  /-- Looks back, perhaps inside of another group that does. -/
  | behind (negated : Bool) (outer : Option Nat)
  | given (number : Nat)

/-- The counted groups that have been met. -/
structure Groups where
  count : Nat := 0
  names : List (Text × Nat) := []
  /-- Those that have been left, with the characters that they take up. -/
  closed : List (Nat × Span) := []
  /-- How many there were in front of the outermost open group that looks back. -/
  limit : Option Nat := none
  /-- The numbers in conditions, which may be those of groups to come. -/
  awaited : List Nat := []

namespace Groups

def number? (groups : Groups) : GroupReference → Option Nat
  | .number number => if number == 0 then none else some number
  | .name name => groups.names.lookup name

def isClosed (groups : Groups) (number : Nat) : Bool := (groups.closed.lookup number).isSome

/-- What looks back may refer only to groups in front of it. -/
def isVisible (groups : Groups) (number : Nat) : Bool :=
  groups.limit.all fun limit => groups.isClosed number && number ≤ limit

/-- The group whose text may come again. -/
def readBefore? (groups : Groups) (reference : GroupReference) : Option Nat :=
  (groups.number? reference).filter fun number => groups.isClosed number && groups.isVisible number

/-- Opens a group, `none` if its name is taken or its condition is about no group. -/
def enter? (groups : Groups) : GroupKind → Option (Enclosure × Groups)
  | .plain => some (.plain, groups)
  | .counted name =>
    if name.any fun name => (groups.names.lookup name).isSome then none
    else
      let number := groups.count + 1
      let names := (name.map (·, number)).toList ++ groups.names
      some (.counted number, { groups with count := number, names })
  | .atomic => some (.atomic, groups)
  | .ahead negated => some (.ahead negated, groups)
  | .behind negated =>
    some (.behind negated groups.limit, { groups with limit := groups.limit <|> some groups.count })
  | .given reference =>
    ((groups.number? reference).filter groups.isVisible).map fun number =>
      (.given number, { groups with awaited := number :: groups.awaited })

/-- A group behaves as one item, `none` if it has to have one width and has not, or has to have at
most two alternatives and has more. -/
def leave? (groups : Groups) (group : Unfinished) : Enclosure → Option (Pattern × Groups)
  | .plain => some (group.whole, groups)
  | .counted number =>
    let closed := (number, group.whole.span groups.closed) :: groups.closed
    some (.group number group.whole, { groups with closed })
  | .atomic => some (.atomic group.whole, groups)
  | .ahead negated => some (.ahead negated group.whole, groups)
  | .behind negated outer =>
    ((group.whole.span groups.closed).width?.filter (· ≤ largest)).map fun width =>
      (.precededBy negated width group.whole, { groups with limit := outer })
  | .given number =>
    match group.before with
    | [] => some (.given number group.run .empty, groups)
    | [yes] => some (.given number yes group.run, groups)
    | _ => none

end Groups

structure Reader where
  group : Unfinished := {}
  outer : List (Enclosure × Unfinished) := []
  groups : Groups := {}

namespace Reader

def push (reader : Reader) (item : Pattern) (repeatable : Repeatable) : Reader :=
  { reader with group := reader.group.push item repeatable }

/-- Reads one token. Neither a place nor a repetition can be repeated. -/
def step? (reader : Reader) : Token → Option Reader
  | .comment => some reader
  | .atom item => some (reader.push item .yes)
  | .place item => some (reader.push item .never)
  | .again casing reference =>
    (reader.groups.readBefore? reference).map fun number => reader.push (.again casing number) .yes
  | .bar => some { reader with group := reader.group.bar }
  | .enter kind _ =>
    (reader.groups.enter? kind).map fun (enclosure, groups) =>
      ⟨{}, (enclosure, reader.group) :: reader.outer, groups⟩
  | .leave =>
    match reader.outer with
    | [] => none
    | (enclosure, around) :: outer =>
      (reader.groups.leave? reader.group enclosure).map fun (item, groups) =>
        ⟨around.push item .yes, outer, groups⟩
  | .times min max mood =>
    match reader.group.last with
    | some (item, .yes) =>
      let repeated := (.times item min max mood, .never)
      some { reader with group := { reader.group with last := some repeated } }
    | _ => none

end Reader

/-- The pattern that a text spells, `none` if it is not one. Characters may be told by the names
that they have in a table. -/
def compile? (s : Text) (named : Text → Option Char := fun _ => none) : Option Pattern := do
  let (letters, rest) ← leading? [] s
  let modes ← Modes.turnAll? true {} letters
  let tokens ← tokens? named modes [] rest
  let reader ← tokens.foldlM Reader.step? {}
  if reader.outer.isEmpty && reader.groups.awaited.all (· ≤ reader.groups.count) then
    some reader.group.whole
  else none

/-- Patterns that are looked for anywhere in a text. -/
def language (named : Text → Option Char := fun _ => none) : PatternLanguage := fun s =>
  (compile? s named).map occursIn

end CascadeLens.Pattern
