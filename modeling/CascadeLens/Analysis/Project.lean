import CascadeLens.Analysis.Cache
import CascadeLens.Analysis.File
import CascadeLens.Analysis.Variables
import CascadeLens.Cascade
import CascadeLens.Ghost.Report

/-! The analysis of a whole project: every stylesheet by itself, and what follows from all of them
together. -/

namespace CascadeLens

open Text

/-- What the analysis of a stylesheet depends on, with a digest in the place of the text. -/
structure CacheKey where
  name : Text
  digest : Text
  identity : Identity
  settings : FileSettings
deriving Repr, DecidableEq

def Source.key (identity : Identity) (settings : FileSettings) (source : Source) : CacheKey :=
  ⟨source.name, source.digest, identity, settings⟩

/-- One reading of a stylesheet. Two readings are told apart by their numbers even if they come to
the same analysis. -/
structure Reading where
  number : Nat
  file : FileAnalysis
deriving Repr, DecidableEq

/-- The matches of a reading. Their rules belong to it and to no other reading. -/
def Reading.found (reading : Reading) : List Match :=
  reading.file.found.map fun item =>
    { item with rule := { item.rule with reading := reading.number } }

abbrev AnalysisCache := Cache CacheKey Reading

/-- Analyzes a stylesheet with a cache: a reading that is held is not made again, and a new one gets
the given number. -/
def AnalysisCache.read (cache : AnalysisCache) (identity : Identity) (settings : FileSettings)
    (number : Nat) (source : Source) : Reading × AnalysisCache :=
  match cache.get (source.key identity settings) with
  | (some reading, cache) => (reading, cache)
  | (none, cache) =>
    let reading := ⟨number, source.analyze identity settings⟩
    (reading, cache.put (source.key identity settings) (some reading))

/-- Analyzes stylesheets one after the other with a cache. -/
def AnalysisCache.readAll (identity : Identity) (settings : FileSettings) :
    AnalysisCache → Nat → List Source → List Reading × AnalysisCache
  | cache, _, [] => ([], cache)
  | cache, number, source :: rest =>
    let (reading, cache) := cache.read identity settings number source
    let (more, cache) := readAll identity settings cache (number + 1) rest
    (reading :: more, cache)

/-- Analyzes stylesheets without a cache. -/
def readAllFresh (identity : Identity) (settings : FileSettings) (sources : List Source) :
    List Reading :=
  sources.zipIdx.map fun (source, number) => ⟨number, source.analyze identity settings⟩

/-- The outcome of analyzing one target against a project. -/
structure Report where
  identity : Identity
  files : List FileAnalysis
  conflicts : List Conflict
  ghosts : GhostReport
  usages : List VariableUsage
  linkOrder : List Text
deriving Repr, DecidableEq

namespace Report

/-- The report on the readings of a project, `none` if a further convention is no pattern of the
language. -/
def ofReadings? (identity : Identity) (linkOrder : List Text) (config : Config)
    (readings : List Reading) (language : PatternLanguage := Pattern.language) : Option Report :=
  let files := readings.map (·.file)
  let found := readings.flatMap (·.found)
  (GhostReport.ofTexts? identity found config.furtherConventions language).map fun ghosts =>
    { identity
      files
      conflicts := resolveConflicts (collectDeclarations found linkOrder)
      ghosts
      usages := collectVariables found (files.filterMap (·.sheet))
      linkOrder }

def matchedFiles (report : Report) : List FileAnalysis := report.files.filter (·.hasMatches)

def found (report : Report) : List Match := report.files.flatMap (·.found)

/-- Files with matching rules that the page does not link. Without a link order none is known. -/
def unlinkedFiles (report : Report) : List Text :=
  if report.linkOrder.isEmpty then []
  else (report.matchedFiles.map (·.name)).filter (!report.linkOrder.contains ·)

/-- The warning about a target that has no names to go by. -/
def noSelectors : Diagnostic :=
  { code := "no_selectors", severity := .warning
    message := "Target element has no classes or ids; detection may be limited".toList }

def diagnostics (report : Report) : List Diagnostic :=
  (if report.identity.hasSelectors then [] else [noSelectors])
    ++ report.files.flatMap (·.diagnostics)

end Report

/-- Analyzes a project, one stylesheet after the other, with the given cache if the settings allow
for one. -/
def analyzeProject (identity : Identity) (sources : List Source) (linkOrder : List Text)
    (config : Config) (cache : Option AnalysisCache)
    (language : PatternLanguage := Pattern.language) : Option Report × Option AnalysisCache :=
  match (if config.useCache then cache else none) with
  | some held =>
    let (readings, held) := held.readAll identity config.toFileSettings 0 sources
    (Report.ofReadings? identity linkOrder config readings language, some held)
  | none =>
    (Report.ofReadings? identity linkOrder config
      (readAllFresh identity config.toFileSettings sources) language, cache)

end CascadeLens
