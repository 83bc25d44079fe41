import CascadeLens.Analysis.Project

/-! A project analyzed by workers that share one cache. Every stylesheet is a task of its own, and
between any two steps of a task the others may take some of theirs. -/

namespace CascadeLens

open Text

/-- How far the task of one stylesheet has come. -/
inductive Stage where
  | waiting
  /-- Nothing was held, so a reading has to be made and put. -/
  | missed
  /-- A reading is at hand that is not yet among the results. -/
  | holding (reading : Reading)
  | stored
deriving DecidableEq

structure Pool (count : Nat) where
  cache : AnalysisCache
  stages : Fin count → Stage
  results : Fin count → Option Reading

namespace Pool

variable {count : Nat}

def start (count : Nat) (cache : AnalysisCache) : Pool count :=
  ⟨cache, fun _ => .waiting, fun _ => none⟩

def Finished (pool : Pool count) : Prop := ∀ task, pool.stages task = .stored

/-- The results in the order of the stylesheets, as far as there are any. -/
def readings (pool : Pool count) : List Reading := (List.finRange count).filterMap pool.results

def files (pool : Pool count) : Fin count → Option FileAnalysis :=
  fun task => (pool.results task).map (·.file)

/-- The values of all tasks, with a new one for one of them. -/
def assign {α : Type} (values : Fin count → α) (task : Fin count) (value : α) : Fin count → α :=
  fun other => if other = task then value else values other

section Steps

variable (identity : Identity) (settings : FileSettings) {sources : List Source}

/-- The next step of a task, which no step of another task interrupts. A task that has stored its
result does nothing more. -/
def advance (pool : Pool sources.length) (task : Fin sources.length) : Pool sources.length :=
  let key := sources[task].key identity settings
  match pool.stages task with
  | .waiting =>
    match pool.cache.get key with
    | (some reading, cache) =>
      { pool with cache, stages := assign pool.stages task (.holding reading) }
    | (none, cache) => { pool with cache, stages := assign pool.stages task .missed }
  | .missed =>
    let reading : Reading := ⟨task, sources[task].analyze identity settings⟩
    { pool with
      cache := pool.cache.put key (some reading)
      stages := assign pool.stages task (.holding reading) }
  | .holding reading =>
    { pool with
      stages := assign pool.stages task .stored
      results := assign pool.results task (some reading) }
  | .stored => pool

/-- The tasks take steps in the order of a schedule. -/
def run (pool : Pool sources.length) (schedule : List (Fin sources.length)) : Pool sources.length :=
  schedule.foldl (advance identity settings) pool

/-- The order in which no task begins before the one in front of it has ended. -/
def inTurn (count : Nat) : List (Fin count) :=
  (List.finRange count).flatMap fun task => [task, task, task]

/-- All tasks come to their end: what a schedule leaves to be done is done in turn. -/
def complete (pool : Pool sources.length) (schedule : List (Fin sources.length)) :
    Pool sources.length :=
  pool.run identity settings (schedule ++ inTurn sources.length)

end Steps

end Pool

/-- Analyzes a project as the settings ask for it: by several workers, whose steps come in the order
of a schedule, or one stylesheet after the other. Without a cache the workers share nothing, so that
their order makes no difference. -/
def analyzeProjectBy (identity : Identity) (sources : List Source) (linkOrder : List Text)
    (config : Config) (cache : Option AnalysisCache) (schedule : List (Fin sources.length))
    (language : PatternLanguage := Pattern.language) : Option Report × Option AnalysisCache :=
  if 1 < config.workers && 1 < sources.length then
    match (if config.useCache then cache else none) with
    | some held =>
      let pool := (Pool.start sources.length held).complete identity config.toFileSettings schedule
      (Report.ofReadings? identity linkOrder config pool.readings language, some pool.cache)
    | none =>
      (Report.ofReadings? identity linkOrder config
        (readAllFresh identity config.toFileSettings sources) language, cache)
  else analyzeProject identity sources linkOrder config cache language

end CascadeLens
