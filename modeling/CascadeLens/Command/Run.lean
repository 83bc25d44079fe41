import CascadeLens.Command.Analyze
import CascadeLens.Command.Arguments
import CascadeLens.Command.Listing

/-! The command line: which command its arguments ask for. -/

namespace CascadeLens.Command

open Text

def helpSwitch : Switch := { key := "help", names := ["--help"] }

def programSwitches : List Switch := [{ key := "version", names := ["--version"] }, helpSwitch]

def analyzeSwitches : List Switch := [
  { key := "selector", names := ["-s", "--selector"], takesValue := true },
  { key := "lines", names := ["-l", "--lines"], takesValue := true },
  { key := "index", names := ["--index"], takesValue := true },
  { key := "css", names := ["--css"], takesValue := true },
  { key := "project", names := ["--project"], takesValue := true },
  { key := "json", names := ["--json"] },
  { key := "workers", names := ["--workers"], takesValue := true },
  { key := "no-cache", names := ["--no-cache"] },
  { key := "skip-minified", names := ["--skip-minified"] },
  { key := "show-css", names := ["--show-css"] },
  { key := "ignore-pattern", names := ["--ignore-pattern"], takesValue := true },
  { key := "verbose", names := ["-v", "--verbose"] },
  helpSwitch]

def version : Text := "stylescope, version 0.3.0".toList

def usageLine : Text := "Usage: stylescope [analyze | specificity | resolve] ...".toList

def printed (text : Text) : Outcome := .finished 0 false [.out text]

variable {m : Type → Type} [Monad m]

/-- Whether a path as it is written leads to something of a kind. Behind a slash at its end there
has to be a directory. -/
def leadsTo (world : World m) (kind : FileKind) (written : Text) : m Bool := do
  if written.isEmpty then return false
  let asksForDirectory := endsWith written "/".toList || endsWith written "/.".toList
  return match ← world.kind (world.place (Path.parse written)) with
  | .ok found => found == kind && (found == .directory || !asksForDirectory)
  | .error _ => false

/-- The value of an option that is an integer with a least value. -/
def bounded? (least default : Int) (value : Option Text) : Option Int :=
  match value with
  | none => some default
  | some value => (integer? value).filter (least ≤ ·)

/-- What is to be analyzed, `none` if a value makes no sense. -/
def analyzeRequest? (arguments : Arguments) : Option AnalyzeRequest :=
  let patterns := arguments.all "ignore-pattern"
  match arguments.operands, bounded? 0 0 (arguments.last? "index"),
      bounded? 1 1 (arguments.last? "workers") with
  | [source], some index, some workers =>
    if patterns.all fun pattern => (Pattern.compile? pattern).isSome then
      some {
        source
        selector := arguments.last? "selector"
        lines := arguments.last? "lines"
        index
        stylesheets := arguments.all "css"
        project := arguments.last? "project"
        asJson := arguments.has "json"
        showCss := arguments.has "show-css"
        verbose := arguments.has "verbose"
        config := {
          useCache := !arguments.has "no-cache"
          skipMinified := arguments.has "skip-minified"
          workers := workers.toNat
          furtherConventions := patterns } }
    else none
  | _, _, _ => none

def runAnalyze (world : World m) (arguments : Arguments) : m Outcome := do
  match analyzeRequest? arguments with
  | none => return .usage false
  | some request =>
    let files ← request.stylesheets.mapM (leadsTo world .file)
    let directories ← request.project.toList.mapM (leadsTo world .directory)
    if files.all id && directories.all id then analyze world request else return .usage false

def runSpecificity (arguments : Arguments) : Outcome :=
  if arguments.operands.isEmpty then .usage false else listSpecificities arguments.operands

def runResolve (world : World m) (arguments : Arguments) : m Outcome := do
  match arguments.operands with
  | [written] =>
    if ← leadsTo world .file written then listSelectors world (Path.parse written)
    else return .usage false
  | _ => return .usage false

/-- Reads the arguments of a command and runs it, unless help is asked for. -/
def runWith (switches : List Switch) (run : Arguments → m Outcome) (arguments : List Text) :
    m Outcome :=
  match Arguments.read switches true arguments with
  | none => return .usage false
  | some arguments => if arguments.has "help" then return printed usageLine else run arguments

/-- Runs the command that the arguments name. -/
def run (world : World m) (arguments : List Text) : m Outcome :=
  match Arguments.read programSwitches false arguments with
  | none => return .usage false
  | some ⟨(key, _) :: _, _⟩ => return printed (if key == "version" then version else usageLine)
  | some ⟨[], []⟩ => return .usage false
  | some ⟨[], name :: rest⟩ =>
    match String.ofList name with
    | "analyze" => runWith analyzeSwitches (runAnalyze world) rest
    | "specificity" => runWith [helpSwitch] (fun arguments => return runSpecificity arguments) rest
    | "resolve" => runWith [helpSwitch] (runResolve world) rest
    | _ => return .usage false

end CascadeLens.Command
