import CascadeLens.Text.Find
import CascadeLens.Text.Letter

/-! The arguments of a command: options with or without values, in long and short forms, and
operands. -/

namespace CascadeLens.Command

open Text

/-- An option, with its names as they are written. -/
structure Switch where
  key : String
  names : List String
  takesValue : Bool := false
deriving Repr, DecidableEq

/-- Options in the order in which they are given, and operands. -/
structure Arguments where
  given : List (String × Text) := []
  operands : List Text := []
deriving Repr, DecidableEq

def named? (switches : List Switch) (name : Text) : Option Switch :=
  switches.find? fun switch => switch.names.any (·.toList == name)

/-- The options in a run of letters behind one hyphen, and the option whose value is still to come.
What follows an option that takes a value is its value. -/
def readLetters (switches : List Switch) : Text → Option (List (String × Text) × Option String)
  | [] => some ([], none)
  | letter :: rest =>
    match named? switches ['-', letter] with
    | none => none
    | some switch =>
      if switch.takesValue then
        if rest.isEmpty then some ([], some switch.key) else some ([(switch.key, rest)], none)
      else
        (readLetters switches rest).map fun (given, open?) => ((switch.key, []) :: given, open?)

/-- The options in one argument, and the option whose value is still to come. -/
def readSwitch (switches : List Switch) (argument : Text) :
    Option (List (String × Text) × Option String) :=
  if beginsWith argument "--".toList then
    let (name, value?) := cut '=' argument
    match named? switches name with
    | none => none
    | some switch =>
      match switch.takesValue, value? with
      | true, some value => some ([(switch.key, value)], none)
      | true, none => some ([], some switch.key)
      | false, some _ => none
      | false, none => some ([(switch.key, [])], none)
  else readLetters switches (argument.drop 1)

def Arguments.giving (arguments : Arguments) (given : List (String × Text)) : Arguments :=
  { arguments with given := given ++ arguments.given }

namespace Arguments

/-- Reads arguments, `none` if an option is not known or has no value. Operands may stand between
options, or else end them. -/
def read (switches : List Switch) (mixed : Bool) : List Text → Option Arguments
  | [] => some {}
  | argument :: rest =>
    if argument == "--".toList then some { operands := rest }
    else if 1 < argument.length && argument.head? == some '-' then
      match readSwitch switches argument with
      | none => none
      | some (given, none) => (read switches mixed rest).map (·.giving given)
      | some (given, some key) =>
        match rest with
        | [] => none
        | value :: more => (read switches mixed more).map (·.giving (given ++ [(key, value)]))
    else if mixed then
      (read switches mixed rest).map fun arguments =>
        { arguments with operands := argument :: arguments.operands }
    else some { operands := argument :: rest }

def has (arguments : Arguments) (key : String) : Bool := arguments.given.any (·.1 == key)

/-- All values of an option. -/
def all (arguments : Arguments) (key : String) : List Text :=
  (arguments.given.filter (·.1 == key)).map (·.2)

/-- The value of an option, which is the last one given. -/
def last? (arguments : Arguments) (key : String) : Option Text := (arguments.all key).getLast?

end Arguments

/-- Whether digits follow, with single underscores between them. -/
def isDigitRun (afterDigit : Bool) : Text → Bool
  | [] => afterDigit
  | c :: rest =>
    if isDecimal c then isDigitRun true rest
    else c == '_' && afterDigit && isDigitRun false rest

/-- The integer that a text spells. Blanks around it do not matter. -/
def integer? (s : Text) : Option Int :=
  let s := trim s
  let (factor, digits) : Int × Text :=
    match s with
    | '-' :: rest => (-1, rest)
    | '+' :: rest => (1, rest)
    | _ => (1, s)
  if isDigitRun false digits then some (factor * (decimalNumber (digits.filter (· != '_')) : Nat))
  else none

end CascadeLens.Command
