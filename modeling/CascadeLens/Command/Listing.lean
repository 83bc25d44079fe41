import CascadeLens.Command.Log
import CascadeLens.Selector.Weight

/-! The commands that list what selectors count for, and how nested selectors flatten. -/

namespace CascadeLens.Command

open Text

/-- Lists the specificity of selectors. -/
def listSpecificities (selectors : List Text) : Outcome :=
  .finished 0 false (selectors.map fun selector =>
    .out ((Selector.specificity selector).text.toList ++ "  ".toList ++ selector))

def lineSpan (first last : Nat) : Text := (toString first ++ "-" ++ toString last).toList

/-- The lines of a rule with its flattened selectors, and the resolver behind it. -/
def listRule (resolver : Resolver) (rule : Rule) : List Line × Resolver :=
  let (resolved, after) := resolver.resolve rule
  let context :=
    match rule.context with
    | none | some [] => []
    | some context => "  [".toList ++ context ++ [']']
  let heading := lineSpan rule.startLine rule.endLine ++ "  ".toList ++ rule.selector ++ context
  let records := (after.warnings.drop resolver.warnings.length).map fun (rule, count) =>
    Line.log (.ofFanOut rule count)
  (.out heading :: records ++ resolved.map fun selector => .out ("    -> ".toList ++ selector.text),
    after)

def listRules (resolver : Resolver) : List Rule → List Line × Resolver
  | [] => ([], resolver)
  | rule :: rest =>
    let (lines, resolver) := listRule resolver rule
    let (more, resolver) := listRules resolver rest
    (lines ++ more, resolver)

/-- Lists the rules of a stylesheet. -/
def listSheet (name : Text) (sheet : Stylesheet) : List Line :=
  let (lines, resolver) := listRules {} sheet.rules
  let blocks := (sheet.keyframes ++ sheet.properties).map fun block =>
    Line.out (lineSpan block.startLine block.endLine ++ "  @".toList ++ block.name
      ++ ' ' :: block.params)
  let warnings := resolver.warnings.map fun (rule, count) =>
    Line.err ("Warning: ".toList ++ quoted rule.selector
      ++ (" expands to " ++ toString count ++ " selectors").toList)
  lines ++ blocks
    ++ [.out [],
      .out (("Summary: " ++ toString sheet.rules.length ++ " rule(s) in ").toList ++ name)]
    ++ warnings

/-- Lists the rules of the stylesheet at a path. -/
def listSelectors {m : Type → Type} [Monad m] (world : World m) (path : Path) : m Outcome := do
  let failed (message : Text) : Outcome := .finished 1 false [.err message]
  return match ← world.loadSource path with
  | .error fault => failed ("Parse error: ".toList ++ fault.message)
  | .ok source =>
    if source.dialect == .sass then
      failed "Error: indented .sass syntax is not supported".toList
    else
      match Stylesheet.parse source.text path.name source.dialect with
      | .error fault => failed ("Parse error: ".toList ++ fault.message.toList)
      | .ok sheet => .finished 0 false (listSheet path.name sheet)

end CascadeLens.Command
