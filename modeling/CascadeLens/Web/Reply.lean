import CascadeLens.Text.Case
import CascadeLens.Text.Utf8
import CascadeLens.Web.Address

/-! Replies of web servers. -/

namespace CascadeLens.Web

open Text

structure Reply where
  status : Nat := 200
  headers : List (Text × Text) := []
  body : List UInt8 := []
deriving Repr, DecidableEq

/-- Why there is no reply. -/
inductive Trouble where
  | timeout
  | broken (reason : Text)
deriving Repr, DecidableEq

namespace Reply

def header? (reply : Reply) (name : String) : Option Text :=
  (reply.headers.find? fun (written, _) => lower written == name.toList).map (·.2)

/-- The character set that a reply names, in lower case. -/
def charset? (reply : Reply) : Option Text :=
  match (reply.header? "content-type").map (pieces ';') with
  | none => none
  | some parts =>
    (parts.drop 1).findSome? fun part =>
      match cut '=' part with
      | (name, some value) =>
        if lower (trim name) == "charset".toList then
          some (lower ((trim value).filter (· != '"')))
        else none
      | _ => none

/-- The body as text. A character set that is not known is taken for UTF-8. -/
def text (reply : Reply) : Text :=
  let isNamed (names : List String) : Bool :=
    reply.charset?.any fun name => names.any (·.toList == name)
  if isNamed ["latin-1", "latin1", "latin_1", "l1", "iso-8859-1", "iso8859-1", "iso_8859-1"] then
    ofLatin1 reply.body
  else if isNamed ["ascii", "us-ascii"] then
    reply.body.map fun byte => if byte < 128 then Char.ofNat byte.toNat else '\uFFFD'
  else ofUtf8Lossy reply.body

/-- Where a reply from an address sends on to, if it does. -/
def redirect? (reply : Reply) (address : Text) : Option Text :=
  if [301, 302, 303, 307, 308].contains reply.status then
    (reply.header? "location").map (follow address)
  else none

end Reply

end CascadeLens.Web
