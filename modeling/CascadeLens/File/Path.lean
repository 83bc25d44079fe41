import CascadeLens.Text.Find
import CascadeLens.Text.Case

/-! Paths with slashes. A path is kept without empty and `.` parts, so one path has one
spelling. -/

namespace CascadeLens

open Text

/-- A path from the current directory, or from a root. Exactly two slashes in front make a root
of their own. -/
structure Path where
  root : Text := []
  parts : List Text := []
deriving Repr, DecidableEq

namespace Path

def rootOf (s : Text) : Text :=
  match s with
  | '/' :: '/' :: '/' :: _ => ['/']
  | '/' :: '/' :: _ => ['/', '/']
  | '/' :: _ => ['/']
  | _ => []

def parse (s : Text) : Path :=
  ⟨rootOf s, (pieces '/' s).filter fun part => !part.isEmpty && part != ['.']⟩

def text (path : Path) : Text :=
  if path.root.isEmpty && path.parts.isEmpty then ['.']
  else path.root ++ ['/'].intercalate path.parts

def isAbsolute (path : Path) : Bool := !path.root.isEmpty

/-- The last part, empty if there is none. -/
def name (path : Path) : Text := path.parts.getLast?.getD []

def parent (path : Path) : Path := { path with parts := path.parts.dropLast }

/-- The last dot of the name and what follows it. A dot in front or at the end makes no suffix. -/
def suffix (path : Path) : Text :=
  let tail := path.name.reverse.takeWhile (· != '.')
  if tail.isEmpty || path.name.length ≤ tail.length + 1 then [] else '.' :: tail.reverse

/-- A path read from a directory. An absolute path stays what it is. -/
def join (directory path : Path) : Path :=
  if path.isAbsolute then path else { directory with parts := directory.parts ++ path.parts }

/-- Follows `..` upwards, where no part is a link. Above the root is the root, and of all roots there
is one left. -/
def normalize (path : Path) : Path where
  root := path.root.take 1
  parts :=
    (path.parts.foldl
      (fun above part => if part == ['.', '.'] then above.drop 1 else part :: above) []).reverse

/-- The rest of a path that lies under a directory. -/
def relativeTo? (directory path : Path) : Option Path :=
  if path.root == directory.root && directory.parts.isPrefixOf path.parts then
    some ⟨[], path.parts.drop directory.parts.length⟩
  else none

/-- Paths are ordered by their parts, and parts by code point. -/
def before (a b : Path) : Bool :=
  compare (a.root :: a.parts) (b.root :: b.parts) != .gt

end Path

end CascadeLens
