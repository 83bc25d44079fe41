import CascadeLens.File.Basic

/-! Trees of files. -/

namespace CascadeLens

open Text

/-- Files with their contents, and directories without one, by the parts of their paths from the
root. What lies between is a directory too. -/
structure FileTree where
  entries : List (List Text × Option (List UInt8)) := []

namespace FileTree

def kindAt? (tree : FileTree) (parts : List Text) : Option FileKind :=
  match tree.entries.lookup parts with
  | some (some _) => some .file
  | some none => some .directory
  | none =>
    if parts.isEmpty || tree.entries.any (fun entry => parts.isPrefixOf entry.1) then
      some .directory
    else none

/-- Where a path leads from a place. Every step starts in a directory. -/
def walk (tree : FileTree) (here : List Text) : List Text → Except FileFault (List Text)
  | [] => .ok here
  | part :: rest =>
    match tree.kindAt? here with
    | none => .error .missing
    | some .file => .error .notDirectory
    | some .directory =>
      tree.walk (if part == ['.', '.'] then here.dropLast else here ++ [part]) rest

def kind (tree : FileTree) (path : Path) : Except FileFault FileKind :=
  match tree.walk [] path.parts with
  | .error fault => .error fault
  | .ok parts =>
    match tree.kindAt? parts with
    | some kind => .ok kind
    | none => .error .missing

def read (tree : FileTree) (path : Path) : Except FileFault (List UInt8) :=
  match tree.walk [] path.parts with
  | .error fault => .error fault
  | .ok parts =>
    match tree.entries.lookup parts, tree.kindAt? parts with
    | some (some content), _ => .ok content
    | _, some _ => .error .isDirectory
    | _, none => .error .missing

/-- The files below a directory, by their paths from there. -/
def below (tree : FileTree) (path : Path) : List Path :=
  match tree.walk [] path.parts with
  | .error _ => []
  | .ok parts =>
    tree.entries.filterMap fun (other, content) =>
      if content.isSome && parts.isPrefixOf other && parts.length < other.length then
        some ⟨[], other.drop parts.length⟩
      else none

end FileTree

end CascadeLens
