import CascadeLens.Text.Blank

/-! Searching, cutting and replacing in text. -/

namespace CascadeLens.Text

/-- The rest of a text that begins with the given word. -/
def drop? : Text → Text → Option Text
  | [], s => some s
  | _ :: _, [] => none
  | letter :: word, c :: rest => if letter == c then drop? word rest else none

def beginsWith (s word : Text) : Bool := (drop? word s).isSome

def endsWith (s word : Text) : Bool := beginsWith s.reverse word.reverse

/-- Whether a word occurs in a text. The empty word occurs everywhere. -/
def holds (word : Text) : Text → Bool
  | [] => word.isEmpty
  | c :: rest => beginsWith (c :: rest) word || holds word rest

/-- What stands before the first mark, and what follows it if there is one. -/
def cut (mark : Char) : Text → Text × Option Text
  | [] => ([], none)
  | c :: rest =>
    if c == mark then ([], some rest)
    else
      let (before, after) := cut mark rest
      (c :: before, after)

/-- The pieces between the marks. There is one more piece than there are marks. -/
def pieces (mark : Char) : Text → List Text
  | [] => [[]]
  | c :: rest =>
    if c == mark then [] :: pieces mark rest
    else
      match pieces mark rest with
      | [] => [[c]]
      | piece :: more => (c :: piece) :: more

/-- Puts a text in the place of every mark. -/
def replace (mark : Char) (word : Text) (s : Text) : Text :=
  s.flatMap fun c => if c == mark then word else [c]

/-- The characters from one offset up to another. -/
def slice (s : Text) (start stop : Nat) : Text := (s.drop start).take (stop - start)

/-- The members of a list without repetition, in order of first appearance. -/
def distinct {α : Type} [BEq α] (items : List α) : List α :=
  items.foldl (fun seen item => if seen.contains item then seen else seen ++ [item]) []

end CascadeLens.Text
