import CascadeLens.File.Path
import CascadeLens.Text.Quoted

/-! What is met at a path. -/

namespace CascadeLens

open Text

inductive FileKind where
  | file
  | directory
deriving Repr, DecidableEq

/-- Why nothing is read at a path. -/
inductive FileFault where
  | missing
  /-- A part of the path that is no directory is used as one. -/
  | notDirectory
  | isDirectory
deriving Repr, DecidableEq

/-- The number and the words by which systems know a fault. -/
def FileFault.known : FileFault → Nat × String
  | .missing => (2, "No such file or directory")
  | .notDirectory => (20, "Not a directory")
  | .isDirectory => (21, "Is a directory")

def FileFault.message (path : Path) (fault : FileFault) : Text :=
  let (number, words) := fault.known
  ("[Errno " ++ toString number ++ "] " ++ words ++ ": ").toList ++ quoted path.text

end CascadeLens
