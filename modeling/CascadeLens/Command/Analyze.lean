import CascadeLens.Analysis.Form
import CascadeLens.Analysis.Workers
import CascadeLens.Command.Display
import CascadeLens.Command.Log
import CascadeLens.Page.Links

/-! The command that analyzes which rules style one element of a page. -/

namespace CascadeLens.Command

open Text

/-- What is to be analyzed, and how the report is to look. -/
structure AnalyzeRequest where
  source : Text
  selector : Option Text := none
  lines : Option Text := none
  index : Int := 0
  /-- Further stylesheets. -/
  stylesheets : List Text := []
  /-- A directory whose stylesheets all count. -/
  project : Option Text := none
  asJson : Bool := false
  showCss : Bool := false
  verbose : Bool := false
  config : Config := {}

/-- The text of a page, and the directory that its links are read from. -/
structure LoadedPage where
  html : Text
  base : Option Path

inductive PageFault where
  | source (fault : SourceFault)
  | encoding
deriving Repr, DecidableEq

variable {m : Type → Type} [Monad m]

/-- Loads a page from a file or from the web. -/
def loadPage (world : World m) (source : Text) :
    m (List Line × Except PageFault LoadedPage) := do
  if isUrl source then
    return match ← world.fetch true source with
    | .error fault => ([], .error (.source fault))
    | .ok reply =>
      ([.log ⟨.info, .sources, "Fetched ".toList ++ source
          ++ (" (" ++ toString reply.body.length ++ " bytes)").toList⟩],
        .ok ⟨reply.text, none⟩)
  else
    let path := Path.parse source
    return match ← world.read (world.place path) with
    | .error fault => ([], .error (.source (.unreadable path source fault)))
    | .ok bytes =>
      match ofUtf8? bytes with
      | none => ([], .error .encoding)
      | some text => ([], .ok ⟨unifyLineEnds text, some (world.resolve path).parent⟩)

/-- The file that a link of a page leads to. Inline stylesheets and those on the web have none. -/
def linkedFile (world : World m) (name : Text) : m (List Line × Option Path) := do
  if beginsWith name "<style".toList then return ([], none)
  else if isUrl name || beginsWith name "//".toList then
    return ([.log ⟨.info, .pageLinks, "Skipping remote stylesheet ".toList ++ name⟩], none)
  else
    let path := Path.parse name
    if ← world.isFile path then return ([], some path)
    else
      return ([.log ⟨.warning, .pageLinks,
        "Linked stylesheet ".toList ++ name ++ " does not exist".toList⟩], none)

/-- The stylesheets to look at: those that the page links, then those given, then those of the
project. None is looked at twice. -/
def stylesheetPaths (world : World m) (request : AnalyzeRequest) (linkOrder : List Text) :
    m (List Line × List Path) := do
  let linked ← linkOrder.mapM (linkedFile world)
  let given := request.stylesheets.map fun name => world.resolve (Path.parse name)
  let (scanned, found) ←
    match request.project with
    | none => pure ([], [])
    | some name =>
      let directory := Path.parse name
      let found ← world.discover directory
      pure ([Line.log ⟨.debug, .sources, ("Found " ++ toString found.length
        ++ " stylesheets under ").toList ++ directory.text⟩], found.map world.resolve)
  return (linked.flatMap (·.1) ++ scanned, distinct (linked.filterMap (·.2) ++ given ++ found))

/-- Loads stylesheets. One that cannot be read is left out with a warning. -/
def loadSources (world : World m) (paths : List Path) : m (List Line × List Source) := do
  let loaded ← paths.mapM world.loadSource
  return (loaded.filterMap fun
      | .error fault => some (.err ("Warning: ".toList ++ fault.message))
      | .ok _ => none,
    loaded.filterMap fun
      | .error _ => none
      | .ok source => some source)

/-- Analyzes a target and reports on it. -/
def reportOn (world : World m) (request : AnalyzeRequest) (page : Page) (base : Option Path)
    (identity : Identity) : m (List Line) := do
  let linkOrder := page.loadOrder base
  let (searched, paths) ← stylesheetPaths world request linkOrder
  let (warnings, loaded) ← loadSources world paths
  let sources := page.inlineStyles ++ loaded
  let cache := (Cache.create request.config.cacheSize).toOption
  match (analyzeProjectBy identity sources linkOrder request.config cache []).1 with
  | none => return searched ++ warnings
  | some report =>
    let records := (sources.zip report.files).flatMap (fun (source, file) =>
      Record.ofFile source file) ++ [.ofReport report]
    let shown :=
      if request.asJson then [report.form.written 0]
      else report.shown world.directory request.showCss
    return searched ++ warnings ++ records.map Line.log ++ shown.map Line.out

/-- What becomes of a search that finds no target. -/
def notLocated (verbose : Bool) (lines : List Line) : LocateFault → Outcome
  | .unsupportedSelector => .brokenDown .unsupportedSelector
  | .refusedPage => .brokenDown .refusedPage
  | fault => .finished 1 verbose (lines ++ [.err ("Error: ".toList ++ fault.message)])

def analyze (world : World m) (request : AnalyzeRequest) : m Outcome := do
  if request.selector.isSome == request.lines.isSome then return .usage true
  let (fetched, loaded) ← loadPage world request.source
  match loaded with
  | .error .encoding => return .brokenDown .encoding
  | .error (.source fault) =>
    return .finished 1 request.verbose (fetched ++ [.err ("Error: ".toList ++ fault.message)])
  | .ok ⟨html, base⟩ =>
    match Page.parse? html with
    | none => return .brokenDown .refusedPage
    | some page =>
      let input : PageInput := if request.selector.isSome then .page page else .text html
      let (remarks, located) := locate input request.selector request.index request.lines
      let lines := fetched ++ remarks.map fun remark => Line.log (.ofRemark remark)
      match located with
      | .error fault => return notLocated request.verbose lines fault
      | .ok identity =>
        return .finished 0 request.verbose
          (lines ++ (← reportOn world request page base identity))

end CascadeLens.Command
