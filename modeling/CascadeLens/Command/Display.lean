import CascadeLens.Analysis.Project
import CascadeLens.Stylesheet.Layout

/-! Reports as lines of text. -/

namespace CascadeLens

open Text

/-- The name of a stylesheet as seen from a directory. -/
def shownName (directory : Path) (name : Text) : Text :=
  if name.head? == some '<' then name
  else
    match directory.relativeTo? (Path.parse name) with
    | some path => path.text
    | none => name

def shownLines (first last : Nat) : Text :=
  ("lines " ++ toString first ++ "-" ++ toString last).toList

/-- Names with a separator between them. -/
def listed (separator : String) (items : List Text) : Text := separator.toList.intercalate items

/-- An at-rule context in brackets, if there is one. -/
def shownContext : Option Text → Text
  | none | some [] => []
  | some context => "  [".toList ++ context ++ [']']

def Specificity.shown (specificity : Specificity) : Text := specificity.text.toList

def Match.shown (showCss minified : Bool) (item : Match) : List Text :=
  ["  ".toList ++ item.specificity.shown ++ "  ".toList ++ item.selector ++ "  ".toList
      ++ shownLines item.rule.startLine item.rule.endLine ++ shownContext item.rule.context,
    "      matched on: ".toList ++ listed ", " item.reasons]
    ++ if showCss then
        (lines (displayed minified item.rule.text)).map ("      | ".toList ++ ·)
      else []

def ShadowMatch.shown (item : ShadowMatch) : Text :=
  "  shadow ".toList ++ listed "/" item.kinds ++ "  ".toList ++ item.selector ++ "  (".toList
    ++ listed ", " item.reasons ++ [')']

def AtBlock.shown (block : AtBlock) : Text :=
  "  uses @".toList ++ block.name ++ ' ' :: block.params ++ "  ".toList
    ++ shownLines block.startLine block.endLine

def FileAnalysis.shown (directory : Path) (showCss : Bool) (file : FileAnalysis) : List Text :=
  [] :: (shownName directory file.name ++ if file.minified then " (minified)".toList else [])
    :: file.found.flatMap (·.shown showCss file.minified)
    ++ file.shadows.map (·.shown)
    ++ (file.keyframes ++ file.properties).map (·.shown)

/-- Where a candidate of a conflict comes from. -/
def Candidate.shownOrigin (directory : Path) (candidate : Candidate) : Text :=
  "from ".toList ++ candidate.source.selector ++ ' ' :: candidate.source.specificity.shown
    ++ " in ".toList ++ shownName directory candidate.source.rule.source

def Conflict.shown (directory : Path) (conflict : Conflict) : List Text :=
  let winner := conflict.winner
  ("  ".toList ++ conflict.property ++ ": ".toList ++ winner.declaration.value
      ++ (if winner.declaration.important then " !important".toList else [])
      ++ "  ".toList ++ winner.shownOrigin directory)
    :: conflict.losers.map fun loser =>
      "      overrides ".toList ++ loser.declaration.value ++ ' ' :: loser.shownOrigin directory

def VariableUsage.shown (directory : Path) (usage : VariableUsage) : List Text :=
  if usage.definitions.isEmpty then ["  ".toList ++ usage.name ++ ": not defined".toList]
  else
    usage.definitions.map fun definition =>
      "  ".toList ++ usage.name ++ ": ".toList ++ definition.value ++ "  (".toList
        ++ definition.context ++ " in ".toList ++ shownName directory definition.source ++ [')']

/-- A part of a report under a heading, with an empty line in front. An empty part is left out. -/
def underHeading (heading : Text) (content : List Text) : List Text :=
  if content.isEmpty then [] else [] :: heading :: content

/-- The ghost classes in a line. -/
def GhostReport.shown (report : GhostReport) : List Text :=
  if report.hasGhosts then
    [[], ("Ghost classes (" ++ toString report.ghosts.length ++ " of " ++ toString report.total
      ++ "): ").toList ++ listed " " report.ghosts]
  else []

/-- The lines of a report, with names as seen from a directory. -/
def Report.shown (directory : Path) (showCss : Bool) (report : Report) : List Text :=
  let diagnostics := report.diagnostics.map (·.text)
  ["Target: ".toList ++ report.identity.summary,
    ("Stylesheets: " ++ toString report.files.length ++ " scanned, "
      ++ toString report.matchedFiles.length ++ " with matching rules").toList]
    ++ report.matchedFiles.flatMap (·.shown directory showCss)
    ++ underHeading "Conflicts:".toList (report.conflicts.flatMap (·.shown directory))
    ++ report.ghosts.shown
    ++ underHeading "Variables:".toList (report.usages.flatMap (·.shown directory))
    ++ underHeading "Matching stylesheets the page does not link:".toList
      (report.unlinkedFiles.map fun name => "  ".toList ++ shownName directory name)
    ++ (if diagnostics.isEmpty then [] else [] :: diagnostics)

end CascadeLens
