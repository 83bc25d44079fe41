import CascadeLens.File.Tree
import CascadeLens.Web.Reply

/-! What a program can ask of its surroundings. -/

namespace CascadeLens

/-- The files and the web around a program. Paths start at the root of the file system. -/
structure World (m : Type → Type) where
  directory : Path
  kind : Path → m (Except FileFault FileKind)
  read : Path → m (Except FileFault (List UInt8))
  below : Path → m (List Path)
  exchange : Text → m (Except Web.Trouble Web.Reply)

namespace World

variable {m : Type → Type}

/-- A path from the root. -/
def place (world : World m) (path : Path) : Path := world.directory.join path

/-- A path from the root without `..` parts. -/
def resolve (world : World m) (path : Path) : Path := (world.place path).normalize

/-- A world that does not change: a tree of files, and a reply for each address. -/
def still (directory : Path) (tree : FileTree) (web : Text → Except Web.Trouble Web.Reply) :
    World Id where
  directory := directory
  kind := tree.kind
  read := tree.read
  below := tree.below
  exchange := web

def isFile [Monad m] (world : World m) (path : Path) : m Bool := do
  return match ← world.kind (world.place path) with
  | .ok .file => true
  | _ => false

end World

end CascadeLens
