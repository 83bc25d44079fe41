import CascadeLens.Analysis.Project
import CascadeLens.Page.Locate
import CascadeLens.Source.Load
import CascadeLens.Stylesheet.Skipped

/-! What commands log, and what they write. -/

namespace CascadeLens.Command

open Text

inductive LogLevel where
  | debug
  | info
  | warning
deriving Repr, DecidableEq

/-- What a record of the log is about. -/
inductive Topic where
  | target
  | sources
  | pageLinks
  | reading
  | nesting
  | analysis
deriving Repr, DecidableEq

def LogLevel.text : LogLevel → String
  | .debug => "DEBUG"
  | .info => "INFO"
  | .warning => "WARNING"

/-- The names by which log lines call their topics. -/
def Topic.text : Topic → String
  | .target => "stylescope.html.target"
  | .sources => "stylescope.sources"
  | .pageLinks => "stylescope.cli.analyze"
  | .reading => "stylescope.stylesheet.parser"
  | .nesting => "stylescope.selectors.resolver"
  | .analysis => "stylescope.analysis.analyzer"

structure Record where
  level : LogLevel
  topic : Topic
  message : Text
deriving Repr, DecidableEq

namespace Record

/-- The line of a record. Only warnings are shown unless all records are asked for. -/
def line? (verbose : Bool) (record : Record) : Option Text :=
  if verbose then
    some ((record.level.text ++ " " ++ record.topic.text ++ ": ").toList ++ record.message)
  else if record.level == .warning then some record.message
  else none

def ofRemark (remark : Remark) : Record :=
  match remark with
  | .located _ => ⟨.debug, .target, remark.message⟩
  | _ => ⟨.warning, .target, remark.message⟩

def ofFanOut (rule : Rule) (count : Nat) : Record :=
  ⟨.warning, .nesting,
    "Selector ".toList ++ quoted rule.selector ++ " at ".toList ++ rule.source
      ++ (":" ++ toString rule.startLine ++ " fans out into " ++ toString count
        ++ " variants").toList⟩

def ofNotice (name : Text) : Notice → Option Record
  | .failed .indented =>
    some ⟨.warning, .analysis, name ++ ": ".toList ++ Failure.indented.message.toList⟩
  | .failed (.unreadable fault) =>
    some ⟨.warning, .analysis,
      "Could not parse ".toList ++ name ++ ": ".toList ++ fault.message.toList⟩
  | .skippedMinified => some ⟨.info, .analysis, "Skipping minified stylesheet ".toList ++ name⟩
  | .empty => none
  | .fanOut rule count => some (ofFanOut rule count)

/-- The records of the blocks that reading a source passes over. -/
def ofSkipped (source : Source) : List Record :=
  (skippedBlocks source.dialect source.text).map fun (name, line) =>
    ⟨.debug, .reading, "Skipping @".toList ++ name ++ " block at ".toList ++ source.name
      ++ (":" ++ toString line).toList⟩

/-- The records of the analysis of a source. -/
def ofFile (source : Source) (file : FileAnalysis) : List Record :=
  let isRead := file.notices.all fun
    | .failed .indented | .skippedMinified => false
    | _ => true
  (if isRead then ofSkipped source else [])
    ++ file.notices.filterMap (ofNotice source.name)
    ++ (if file.sheet.isSome then
        [⟨.debug, .analysis, source.name ++ (": " ++ toString file.found.length ++ " matches, "
          ++ toString file.shadows.length ++ " shadow matches").toList⟩]
      else [])

def ofReport (report : Report) : Record :=
  ⟨.info, .analysis, ("Analyzed " ++ toString report.files.length ++ " stylesheets: "
    ++ toString report.found.length ++ " matches, " ++ toString report.conflicts.length
    ++ " properties in conflict, " ++ toString report.ghosts.ghosts.length
    ++ " ghost classes").toList⟩

end Record

/-- A line that a command writes: to standard output, to standard error, or to the log. -/
inductive Line where
  | out (text : Text)
  | err (text : Text)
  | log (record : Record)
deriving Repr, DecidableEq

/-- Why a command breaks down. -/
inductive Breakdown where
  /-- A page is not well-formed UTF-8. -/
  | encoding
  | unsupportedSelector
  | refusedPage
deriving Repr, DecidableEq

inductive Outcome where
  /-- The arguments make no sense; or, in the one case that they do, the target is not chosen. -/
  | usage (targetNotChosen : Bool)
  | brokenDown (cause : Breakdown)
  | finished (code : Nat) (verbose : Bool) (lines : List Line)
deriving Repr, DecidableEq

/-- Lines with their ends. -/
def written (lines : List Text) : Text := lines.flatMap (· ++ ['\n'])

/-- What goes to standard output. -/
def outputOf (lines : List Line) : Text :=
  written (lines.filterMap fun
    | .out text => some text
    | _ => none)

/-- What goes to standard error, the log included. -/
def errorsOf (verbose : Bool) (lines : List Line) : Text :=
  written (lines.filterMap fun
    | .out _ => none
    | .err text => some text
    | .log record => record.line? verbose)

end CascadeLens.Command
