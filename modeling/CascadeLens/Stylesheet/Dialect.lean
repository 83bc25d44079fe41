import CascadeLens.File.Path

/-! Dialects of stylesheets. -/

namespace CascadeLens

open Text

inductive Dialect where
  | css
  | scss
  | sass
  | less
  | other (name : Text)
deriving Repr, DecidableEq

namespace Dialect

def name : Dialect → Text
  | css => "css".toList
  | scss => "scss".toList
  | sass => "sass".toList
  | less => "less".toList
  | other name => name

def ofName (name : Text) : Dialect :=
  match [css, scss, sass, less].find? (·.name == name) with
  | some dialect => dialect
  | none => other name

/-- Whether two slashes begin a comment that ends with its line. -/
def hasLineComments : Dialect → Bool
  | scss => true
  | less => true
  | _ => false

/-- The dialect that a file's suffix stands for. -/
def ofSuffix? (suffix : Text) : Option Dialect :=
  [css, scss, sass, less].find? fun dialect => '.' :: dialect.name == lower suffix

/-- The dialect of a file, which is plain unless its suffix says otherwise. -/
def ofPath (path : Path) : Dialect := (ofSuffix? path.suffix).getD css

end Dialect

end CascadeLens
