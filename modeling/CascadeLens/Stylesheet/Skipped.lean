import CascadeLens.Stylesheet.Reader

/-! The blocks of a stylesheet that are passed over without being kept. -/

namespace CascadeLens

open Text

namespace SheetReader

/-- The block that a reader has entered to pass over it, by its name and line. -/
def skipped? (before after : SheetReader) : Option (Text × Nat) :=
  if after.outer.length == before.outer.length + 1 && after.level.kind == .passed 0 none then
    some ((atRuleOf ((trim before.level.item.reverse).drop 1)).name, after.level.start.line)
  else none

/-- The blocks passed over on the way, as far as the text can be read. -/
def skippedIn (lineComments : Bool) (reader : SheetReader) : Text → List (Text × Nat)
  | [] => []
  | c :: rest =>
    match reader.step lineComments c rest.head? with
    | .error _ => []
    | .ok after => (reader.skipped? after).toList ++ after.skippedIn lineComments rest

end SheetReader

/-- The names and the lines of the blocks that are not read. -/
def skippedBlocks (dialect : Dialect) (source : Text) : List (Text × Nat) :=
  SheetReader.skippedIn dialect.hasLineComments {} source

end CascadeLens
