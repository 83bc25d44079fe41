import CascadeLens.Source
import CascadeLens.Text.Place
import CascadeLens.World

/-! Getting at sources: stylesheets on disk, all of them under a directory, and pages on the web. -/

namespace CascadeLens

open Text

/-- Why a source is not at hand. -/
inductive SourceFault where
  /-- A file, with the location by which it was asked for. -/
  | unreadable (path : Path) (location : Text) (fault : FileFault)
  | timedOut (address : Text)
  | unreachable (address reason : Text)
  | refused (address : Text) (status : Nat)
deriving Repr, DecidableEq

namespace SourceFault

def message : SourceFault → Text
  | unreadable path _ fault =>
    "Could not read ".toList ++ path.text ++ ": ".toList ++ fault.message path
  | timedOut address => "Timed out fetching ".toList ++ address
  | unreachable address reason => "Could not fetch ".toList ++ address ++ ": ".toList ++ reason
  | refused address status => ("HTTP " ++ toString status ++ " fetching ").toList ++ address

def location : SourceFault → Text
  | unreadable _ location _ => location
  | timedOut address => address
  | unreachable address _ => address
  | refused address _ => address

def status? : SourceFault → Option Nat
  | refused _ status => some status
  | _ => none

end SourceFault

/-- Directories whose files belong to someone else or are made from other files. -/
def ignoredDirectories : List String :=
  ["node_modules", "bower_components", "vendor", ".git", "dist", "build", "coverage"]

/-- Whether the path of a file under a directory is that of a stylesheet to be looked at. -/
def isOwnStylesheet (path : Path) : Bool :=
  (Dialect.ofSuffix? path.suffix).isSome
    && !path.parent.parts.any fun part => ignoredDirectories.any (·.toList == part)

namespace World

variable {m : Type → Type} [Monad m]

/-- The stylesheet at a path. Bytes that are no text are replaced. -/
def loadSource (world : World m) (path : Path) : m (Except SourceFault Source) := do
  return match ← world.read (world.place path) with
  | .error fault => .error (.unreadable path path.text fault)
  | .ok bytes => .ok ⟨path.text, unifyLineEnds (ofUtf8Lossy bytes), Dialect.ofPath path⟩

/-- The stylesheets under a directory in the order of their paths. -/
def discover (world : World m) (directory : Path) : m (List Path) := do
  let found := (← world.below (world.place directory)).filter isOwnStylesheet
  return (found.map directory.join).mergeSort Path.before

/-- The reply to a request that was sent on to an address, with a number of requests left. -/
def request (world : World m) (following : Bool) (asked : Text) :
    Nat → Text → m (Except SourceFault Web.Reply)
  | 0, _ => return .error (.unreachable asked "Exceeded maximum allowed redirects.".toList)
  | left + 1, address => do
    match ← world.exchange address with
    | .error .timeout => return .error (.timedOut asked)
    | .error (.broken reason) => return .error (.unreachable asked reason)
    | .ok reply =>
      match (if following then reply.redirect? address else none) with
      | some next => world.request following asked left next
      | none =>
        return if 300 ≤ reply.status then .error (.refused asked reply.status) else .ok reply

/-- The reply of an address. It may send on twenty times. -/
def fetch (world : World m) (following : Bool) (address : Text) :
    m (Except SourceFault Web.Reply) :=
  world.request following address 21 address

end World

end CascadeLens
