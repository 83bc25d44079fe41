import CascadeLens.Analysis.Config
import CascadeLens.Diagnostic
import CascadeLens.Match
import CascadeLens.Selector.Nesting
import CascadeLens.Selector.Weight
import CascadeLens.Source
import CascadeLens.Stylesheet.Layout
import CascadeLens.Stylesheet.Reader
import CascadeLens.Target.Matcher
import CascadeLens.Target.Shadow
import CascadeLens.Text.Quoted

/-! What one stylesheet contributes to a target. -/

namespace CascadeLens

open Text

/-- Why a stylesheet could not be analyzed. -/
inductive Failure where
  | indented
  | unreadable (fault : Fault)
deriving Repr, DecidableEq

def Failure.message : Failure → String
  | .indented => "Indented .sass syntax is not supported; file skipped"
  | .unreadable fault => fault.message

/-- Findings about one stylesheet. -/
inductive Notice where
  | failed (failure : Failure)
  | skippedMinified
  | empty
  /-- A rule that stands for more selectors than expected. -/
  | fanOut (rule : Rule) (count : Nat)
deriving Repr, DecidableEq

def Notice.diagnostic (name : Text) : Notice → Diagnostic
  | .failed .indented =>
    { code := "unsupported_syntax", severity := .warning, source := name
      message := Failure.indented.message.toList }
  | .failed (.unreadable fault) =>
    { code := "parse_error", severity := .error, source := name, line := some fault.line
      message := fault.message.toList }
  | .skippedMinified =>
    { code := "skipped_minified", severity := .info, source := name
      message := "Minified stylesheet skipped".toList }
  | .empty =>
    { code := "empty_stylesheet", severity := .info, source := name
      message := "Stylesheet is empty".toList }
  | .fanOut rule count =>
    { code := "selector_fan_out", severity := .warning, source := name, line := some rule.startLine
      message := "Selector ".toList ++ quoted rule.selector ++ " expands to ".toList
        ++ (toString count).toList ++ " variants".toList }

/-- The analysis of one stylesheet. Without a sheet nothing was read. -/
structure FileAnalysis where
  name : Text
  dialect : Dialect
  found : List Match := []
  shadows : List ShadowMatch := []
  keyframes : List AtBlock := []
  properties : List AtBlock := []
  minified : Bool := false
  notices : List Notice := []
  sheet : Option Stylesheet := none
deriving Repr, DecidableEq

namespace FileAnalysis

def hasMatches (file : FileAnalysis) : Bool := !file.found.isEmpty || !file.shadows.isEmpty

def diagnostics (file : FileAnalysis) : List Diagnostic :=
  file.notices.map (·.diagnostic file.name)

def failure? (file : FileAnalysis) : Option Failure :=
  file.notices.findSome? fun
    | .failed failure => some failure
    | _ => none

end FileAnalysis

/-- Whether a name stands in a text as a whole, given the character before. -/
def standsIn (name : Text) (before : Option Char) : Text → Bool
  | [] => false
  | c :: rest =>
    (!before.any isNameChar
      && (drop? name (c :: rest)).any fun behind => !behind.head?.any isNameChar)
      || standsIn name (some c) rest

/-- The name of a block without quotes around it. -/
def AtBlock.givenName (block : AtBlock) : Text :=
  (((trim block.params).dropWhile isQuote).reverse.dropWhile isQuote).reverse

/-- The blocks whose names are used in one of the bodies. -/
def usedBlocks (blocks : List AtBlock) (bodies : List Text) : List AtBlock :=
  blocks.filter fun block =>
    !block.givenName.isEmpty && bodies.any (standsIn block.givenName none)

/-- Whether the name of a stylesheet ends the way names of minified ones do, in any case. One line
feed may follow. -/
def hasMinifiedName (name : Text) : Bool :=
  let reversed := name.reverse
  let forms := match reversed with
    | '\n' :: rest => [reversed, rest]
    | _ => [reversed]
  forms.any fun form =>
    [".min.css", ".min.scss", ".min.less"].any fun ending =>
      (dropWord? ending.toList.reverse form).isSome

namespace Identity

/-- The specificity with which a selector list applies: that of its most specific branch among those
that match. -/
def specificityOf (identity : Identity) (selector : Text) : Specificity :=
  match identity.matchingBranches selector with
  | [] => Selector.specificity selector
  | matching => Specificity.greatest (matching.map Selector.specificity)

/-- The match of one flattened selector of a rule. -/
def match? (identity : Identity) (rule : Rule) (resolved : Resolved) : Option Match :=
  match identity.reasonsIn resolved.text resolved.expanded with
  | [] => none
  | reasons => some ⟨resolved.text, reasons, rule, identity.specificityOf resolved.text⟩

def shadowMatch? (identity : Identity) (rule : Rule) (resolved : Resolved) : Option ShadowMatch :=
  let relation := identity.shadowRelation resolved.text
  if relation.reasons.isEmpty then none
  else some ⟨resolved.text, relation.reasons, relation.kinds, rule⟩

end Identity

/-- The flattened selectors of all rules in order, each with its rule, and the resolver behind
them. -/
def resolveAll (resolver : Resolver) : List Rule → List (Rule × Resolved) × Resolver
  | [] => ([], resolver)
  | rule :: rest =>
    let (resolved, resolver) := resolver.resolve rule
    let (more, resolver) := resolveAll resolver rest
    (resolved.map (rule, ·) ++ more, resolver)

/-- Matches every rule of a stylesheet. -/
def FileAnalysis.ofSheet (identity : Identity) (settings : FileSettings) (minified : Bool)
    (sheet : Stylesheet) : FileAnalysis :=
  let (resolved, resolver) := resolveAll { bound := settings.fanOutBound } sheet.rules
  let shadows :=
    if settings.includeShadow then
      resolved.filterMap fun (rule, selector) => identity.shadowMatch? rule selector
    else []
  let found := resolved.filterMap fun (rule, selector) => identity.match? rule selector
  let bodies := found.map (·.rule.body) ++ shadows.map (·.rule.body)
  { name := sheet.name
    dialect := sheet.dialect
    found
    shadows
    keyframes := usedBlocks sheet.keyframes bodies
    properties := usedBlocks sheet.properties bodies
    minified
    notices := resolver.warnings.map fun (rule, count) => .fanOut rule count
    sheet := some sheet }

/-- Analyzes a stylesheet. Text that cannot be read is no error of the analysis: the result says
so. -/
def Source.analyze (identity : Identity) (settings : FileSettings) (source : Source) :
    FileAnalysis :=
  let nothing (notice : Notice) : FileAnalysis :=
    { name := source.name, dialect := source.dialect, notices := [notice] }
  if source.dialect == .sass then nothing (.failed .indented)
  else
    let minified := isMinified source.text
    if settings.skipMinified && (minified || hasMinifiedName source.name) then
      { nothing .skippedMinified with minified := true }
    else
      match Stylesheet.parse source.text source.name source.dialect with
      | .error fault => nothing (.failed (.unreadable fault))
      | .ok sheet =>
        if sheet.isEmpty then nothing .empty
        else FileAnalysis.ofSheet identity settings minified sheet

end CascadeLens
