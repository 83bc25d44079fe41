import CascadeLens.Text.Find

/-! Addresses on the web, and references from one to another. -/

namespace CascadeLens.Web

open Text

/-- Whether a text begins with the name of a scheme and a colon. -/
def hasScheme : Text → Bool
  | [] => false
  | c :: rest =>
    c.isAlpha &&
      (rest.dropWhile fun c => c.isAlphanum || c == '+' || c == '-' || c == '.').head? == some ':'

/-- The scheme and the host of an address, and what follows them. -/
def splitHost (address : Text) : Text × Text :=
  let scheme := (cut ':' address).1 ++ [':']
  match drop? "//".toList (address.drop scheme.length) with
  | none => (scheme, address.drop scheme.length)
  | some rest =>
    let host := rest.takeWhile fun c => c != '/' && c != '?' && c != '#'
    (scheme ++ "//".toList ++ host, rest.drop host.length)

/-- A path without `.` and `..` parts. It begins with a slash. -/
def plainPath (path : Text) : Text :=
  let parts := (pieces '/' path).drop 1
  let isUp (part : Text) : Bool := part == ['.', '.']
  let isDot (part : Text) : Bool := part == ['.']
  let kept := (parts.foldl (fun above part =>
    if isUp part then above.drop 1 else if isDot part then above else part :: above) []).reverse
  let isDirectory := parts.getLast?.any fun part => isUp part || isDot part
  '/' :: ['/'].intercalate (if isDirectory then kept ++ [[]] else kept)

/-- The address that a reference on a page leads to. -/
def follow (address reference : Text) : Text :=
  let isPathPart (c : Char) : Bool := c != '?' && c != '#'
  let (host, rest) := splitHost address
  let path := rest.takeWhile isPathPart
  match reference with
  | '/' :: '/' :: _ => (cut ':' address).1 ++ ':' :: reference
  | _ =>
    if hasScheme reference then reference
    else
      let target := reference.takeWhile isPathPart
      let behind := reference.drop target.length
      match target with
      | [] => if behind.isEmpty then address else host ++ path ++ behind
      | '/' :: _ => host ++ plainPath target ++ behind
      | _ =>
        let directory := (path.reverse.dropWhile (· != '/')).reverse
        host ++ plainPath ((if directory.isEmpty then ['/'] else directory) ++ target) ++ behind

end CascadeLens.Web
