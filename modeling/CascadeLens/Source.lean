import CascadeLens.Stylesheet.Dialect
import CascadeLens.Text.Digest

/-! Stylesheets before they are read. -/

namespace CascadeLens

open Text

/-- The text of a stylesheet with the name it is reported and ordered by. -/
structure Source where
  name : Text
  text : Text
  dialect : Dialect := .css
deriving Repr, DecidableEq

def Source.digest (source : Source) : Text := Text.digest source.text

/-- Whether a location is an address on the web. -/
def isUrl (location : Text) : Bool :=
  beginsWith location "http://".toList || beginsWith location "https://".toList

end CascadeLens
