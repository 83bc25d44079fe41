import CascadeLens.Proofs.CachedReports
import CascadeLens.Proofs.WorkerInterleaving

/-! Reports on projects that are analyzed by workers. Whether a project is analyzed by workers or one
stylesheet after the other, with a cache or without, each stylesheet is answered in its place by a reading
that suits its key, and all that is said in a report but its conflicts depends on no more than that. -/

namespace CascadeLens.Proofs.WorkerReports
open CacheEntries CachedReadings CachedReports WorkerInterleaving

section Answers

variable {identity : Identity} {settings : FileSettings} {sources : List Source} {P : CacheKey → Option Reading → Prop}

theorem readings_kept {pool : Pool sources.length} (kept : Kept identity settings P pool) (finished : pool.Finished) :
    Answering P identity settings sources pool.readings := by
  choose answer stored own using fun task => kept.stored task (finished task)
  have listed : pool.readings = (List.finRange sources.length).map answer := by
    rw [Pool.readings, funext stored]
    exact congrFun List.filterMap_eq_map _
  rw [listed]
  refine List.forall₂_iff_get.mpr ⟨by simp, fun place inside _ => ?_⟩
  simpa using own ⟨place, inside⟩

theorem answering_fresh_iff : Answering P identity settings sources (readAllFresh identity settings sources) ↔
    ∀ place (inside : place < sources.length), P (sources[place].key identity settings)
      (some ⟨place, sources[place].analyze identity settings⟩) := by
  simp [Answering, List.forall₂_iff_get, readAllFresh]

theorem complete_holds (fresh : Answering P identity settings sources (readAllFresh identity settings sources))
    {cache : AnalysisCache} (held : AllHeld P cache) (schedule : List (Fin sources.length)) :
    let pool := (Pool.start sources.length cache).complete identity settings schedule
    Answering P identity settings sources pool.readings ∧ AllHeld P pool.cache := by
  have started : Kept identity settings P (Pool.start sources.length cache) := kept_start held
  have each : ∀ task : Fin sources.length, P ((sources.get task).key identity settings)
      (some ⟨task, (sources.get task).analyze identity settings⟩) := fun task => answering_fresh_iff.mp fresh task task.isLt
  have kept := started.run each (schedule ++ Pool.inTurn sources.length)
  exact ⟨readings_kept kept (finished_complete identity settings cache schedule), kept.held⟩

end Answers

section Turns

variable (identity : Identity) (settings : FileSettings) {sources : List Source}

theorem readAll_length (cache : AnalysisCache) (number : Nat) (sources : List Source) :
    (cache.readAll identity settings number sources).1.length = sources.length := by
  induction sources generalizing cache number with
  | nil => rfl
  | cons source rest ih => exact congrArg (· + 1) (ih _ _)

private theorem le_of_mem_drop {count place : Nat} {task : Fin count} (member : task ∈ (List.finRange count).drop place) :
    place ≤ task := by
  obtain ⟨further, _, rfl⟩ := List.mem_drop_iff_getElem.mp member
  simp

/-- Tasks that take their turns from a place on read the stylesheets from there on, one after the other. -/
theorem run_turns (left place : Nat) (pool : Pool sources.length) (whole : place + left = sources.length)
    (waits : ∀ task : Fin sources.length, place ≤ task → pool.stages task = .waiting) :
    let ended := pool.run identity settings
      (((List.finRange sources.length).drop place).flatMap fun task => [task, task, task])
    let answer := pool.cache.readAll identity settings place (sources.drop place)
    ended.cache = answer.2 ∧ ∀ task : Fin sources.length, place ≤ task → ended.results task = answer.1[task - place]? := by
  induction left generalizing place pool with
  | zero =>
    have done : (List.finRange sources.length).drop place = [] := by simp; omega
    have read : sources.drop place = [] := by simp; omega
    rw [done, read]
    exact ⟨rfl, fun task late => absurd task.isLt (by omega)⟩
  | succ left ih =>
    have inside : place < sources.length := by omega
    have turns : (List.finRange sources.length).drop place =
        ⟨place, inside⟩ :: (List.finRange sources.length).drop (place + 1) := by
      rw [List.drop_eq_getElem_cons (by simpa using inside), List.getElem_finRange]
      rfl
    obtain ⟨first, rfl⟩ : ∃ task : Fin sources.length, ↑task = place := ⟨⟨place, inside⟩, rfl⟩
    obtain ⟨held, stored⟩ := uninterrupted (waits first (Nat.le_refl _))
    have apart : ∀ task : Fin sources.length, first + 1 ≤ task.val → task ∉ [first, first, first] := by
      rintro task late member
      obtain rfl : task = first := by simpa using member
      omega
    obtain ⟨ended, results⟩ := ih (first + 1) (pool.run identity settings [first, first, first]) (by omega)
      fun task late => (run_other (apart task late)).1.trans (waits task (by omega))
    have onward : pool.run identity settings (((List.finRange sources.length).drop first).flatMap fun task => [task, task, task]) =
        (pool.run identity settings [first, first, first]).run identity settings
          (((List.finRange sources.length).drop (first + 1)).flatMap fun task => [task, task, task]) := by
      rw [turns]
      rfl
    have behind : first ∉ ((List.finRange sources.length).drop (first + 1)).flatMap fun task => [task, task, task] := by
      intro member
      obtain ⟨task, later, same⟩ := List.mem_flatMap.mp member
      obtain rfl : first = task := by simpa using same
      exact absurd (le_of_mem_drop later) (by omega)
    rw [held] at ended results
    rw [onward, List.drop_eq_getElem_cons inside]
    refine ⟨ended, fun task late => ?_⟩
    rcases Nat.eq_or_lt_of_le late with same | later
    · obtain rfl : first = task := Fin.ext same
      rw [(run_other behind).2, stored, Nat.sub_self]
      rfl
    · have further : task.val - first.val = task.val - (first.val + 1) + 1 := by omega
      rw [results task later, further]
      rfl

variable (sources)

/-- Where tasks do nothing but take their turns, the stylesheets are read one after the other. -/
theorem complete_inTurn (cache : AnalysisCache) :
    let pool := (Pool.start sources.length cache).complete identity settings []
    (pool.readings, pool.cache) = cache.readAll identity settings 0 sources := by
  intro pool
  obtain ⟨ended, results⟩ := run_turns identity settings sources.length 0 (Pool.start sources.length cache) (Nat.zero_add _)
    fun _ _ => rfl
  have long : (cache.readAll identity settings 0 sources).1.length = sources.length :=
    readAll_length identity settings cache 0 sources
  have answers : pool.results = fun task => some ((cache.readAll identity settings 0 sources).1.get (task.cast long.symm)) := by
    funext task
    have inside : task.val < (cache.readAll identity settings 0 sources).1.length := by omega
    exact (results task (Nat.zero_le _)).trans (List.getElem?_eq_getElem inside)
  refine Prod.ext ?_ ended
  rw [Pool.readings, answers]
  refine (congrFun List.filterMap_eq_map _).trans (List.ext_getElem ?_ ?_)
  · simp [long]
  · intro place _ _
    simp

end Turns

section Reports

variable {identity : Identity} {sources : List Source} {linkOrder : List Text} {config : Config}
  {cache : Option AnalysisCache} {P : CacheKey → Option Reading → Prop}

theorem analysis_uncached (unused : (if config.useCache then cache else none) = none) (schedule : List (Fin sources.length))
    (language : PatternLanguage) : (analyzeProjectBy identity sources linkOrder config cache schedule language).1 =
      Report.ofReadings? identity linkOrder config (readAllFresh identity config.toFileSettings sources) language := by
  dsimp only [analyzeProjectBy, analyzeProject]
  rw [unused]
  split <;> rfl

/-- However a project is analyzed, what holds of the analyses of its stylesheets and of all that may be held
holds of the readings that are reported on, and of all that is held then. -/
theorem analysis_holds
    (fresh : Answering P identity config.toFileSettings sources (readAllFresh identity config.toFileSettings sources))
    (held : config.useCache = true → ∀ known, cache = some known → AllHeld P known)
    (schedule : List (Fin sources.length)) (language : PatternLanguage) :
    let analysis := analyzeProjectBy identity sources linkOrder config cache schedule language
    (∃ readings, Answering P identity config.toFileSettings sources readings ∧
      analysis.1 = Report.ofReadings? identity linkOrder config readings language) ∧
    (config.useCache = true → ∀ left, analysis.2 = some left → AllHeld P left) := by
  dsimp only [analyzeProjectBy, analyzeProject]
  cases used : if config.useCache then cache else none with
  | none =>
    have unused : config.useCache = true → cache = none := fun allowed => by rwa [if_pos allowed] at used
    have silent : config.useCache = true → ∀ left, cache = some left → AllHeld P left := by
      intro allowed left given
      rw [unused allowed] at given
      cases given
    split <;> exact ⟨⟨_, fresh, rfl⟩, silent⟩
  | some known =>
    obtain ⟨allowed, given⟩ := Option.ite_none_right_eq_some.mp used
    have remembered := held allowed known given
    split
    · obtain ⟨answered, left⟩ := complete_holds fresh remembered schedule
      exact ⟨⟨_, answered, rfl⟩, fun _ _ same => Option.some.inj same ▸ left⟩
    · have first : ∀ place (inside : place < sources.length), P (sources[place].key identity config.toFileSettings)
          (some ⟨0 + place, sources[place].analyze identity config.toFileSettings⟩) := by
        simpa using answering_fresh_iff.mp fresh
      obtain ⟨answered, left⟩ := readAll_holds remembered first
      exact ⟨⟨_, answered, rfl⟩, fun _ _ same => Option.some.inj same ▸ left⟩

variable {settings : FileSettings} {readings : List Reading}

theorem reread_of_answered (answered : Answering (Answered identity settings sources) identity settings sources readings) :
    Reread identity settings sources readings := by
  refine List.forall₂_iff_get.mpr ⟨answered.length_eq, fun place inside inside' => ?_⟩
  obtain ⟨_, same, file⟩ := answered.get inside inside' _ (List.get_mem _ _) rfl
  rw [Option.some.inj same, file]

/-- What is held under the key of a stylesheet is its analysis, numbered by the place of the stylesheet. -/
def Numbered (identity : Identity) (settings : FileSettings) (sources : List Source) (key : CacheKey)
    (value : Option Reading) : Prop :=
  ∀ place (inside : place < sources.length), sources[place].key identity settings = key →
    value = some ⟨place, sources[place].analyze identity settings⟩

theorem place_of_key (different : Different sources) (apart : DigestsApart sources) {place other : Nat}
    (inside : place < sources.length) (inside' : other < sources.length)
    (same : sources[place].key identity settings = sources[other].key identity settings) : place = other := by
  obtain ⟨name, digest⟩ := sourceKey_eq_iff.mp same
  exact place_of_different different inside inside' name
    (apart _ (List.getElem_mem inside) _ (List.getElem_mem inside') digest)

theorem numbered_fresh (different : Different sources) (apart : DigestsApart sources) {place : Nat}
    (inside : place < sources.length) : Numbered identity settings sources (sources[place].key identity settings)
      (some ⟨place, sources[place].analyze identity settings⟩) := by
  intro other inside' same
  obtain rfl := place_of_key different apart inside' inside same
  rfl

theorem fresh_of_numbered (answered : Answering (Numbered identity settings sources) identity settings sources readings) :
    readings = readAllFresh identity settings sources := by
  apply List.ext_getElem
  · simpa [readAllFresh] using answered.length_eq.symm
  · intro place inside inside'
    have present : place < sources.length := answered.length_eq ▸ inside
    simpa [readAllFresh] using Option.some.inj (answered.get present inside place present rfl)

end Reports

/-- Workers whose steps do not interleave do what is done without workers. -/
theorem analyzeProjectBy_inTurn (identity : Identity) (sources : List Source) (linkOrder : List Text) (config : Config)
    (cache : Option AnalysisCache) (language : PatternLanguage) :
    analyzeProjectBy identity sources linkOrder config cache [] language =
      analyzeProject identity sources linkOrder config cache language := by
  unfold analyzeProjectBy
  split
  · unfold analyzeProject
    cases (if config.useCache then cache else none) with
    | none => rfl
    | some held =>
      have read := complete_inTurn identity config.toFileSettings sources held
      simp only [← read]
  · rfl

/-- Workers that find nothing stale report what is reported of the stylesheets one by one, but for the
conflicts, in which a reading that two stylesheets share counts once. -/
theorem workers_report (identity : Identity) (sources : List Source) (linkOrder : List Text) (config : Config)
    (cache : Option AnalysisCache) (agreed : Agreed sources) (apart : DigestsApart sources)
    (faithful : config.useCache = true → ∀ known, cache = some known → Faithful identity config.toFileSettings sources known)
    (schedule : List (Fin sources.length)) (language : PatternLanguage) :
    (analyzeProjectBy identity sources linkOrder config cache schedule language).1.map undecided =
      (analyzeProject identity sources linkOrder config none language).1.map undecided := by
  have fresh : Answering (Answered identity config.toFileSettings sources) identity config.toFileSettings sources
      (readAllFresh identity config.toFileSettings sources) :=
    answering_fresh_iff.mpr fun place inside => answered_fresh agreed apart (List.getElem_mem inside) place
  obtain ⟨⟨readings, answered, reported⟩, -⟩ := analysis_holds fresh
    (fun allowed known given => faithful_iff.mp (faithful allowed known given)) schedule language
  rw [reported, report_readings (reread_of_answered answered), report_fresh, Option.map_map]
  rfl

/-- Of stylesheets that differ, workers that begin with nothing report the same as is reported without a cache. -/
theorem workers_report_fresh (identity : Identity) (sources : List Source) (linkOrder : List Text) (config : Config)
    (different : Different sources) (apart : DigestsApart sources) (capacity : Nat)
    (schedule : List (Fin sources.length)) (language : PatternLanguage) :
    (analyzeProjectBy identity sources linkOrder config (some { capacity }) schedule language).1 =
      (analyzeProject identity sources linkOrder config none language).1 := by
  have nothing : config.useCache = true → ∀ known, some ({ capacity } : AnalysisCache) = some known →
      AllHeld (Numbered identity config.toFileSettings sources) known := by
    rintro _ _ ⟨⟩ _ _ member
    cases member
  obtain ⟨⟨readings, answered, reported⟩, -⟩ :=
    analysis_holds (answering_fresh_iff.mpr fun _ inside => numbered_fresh different apart inside) nothing schedule language
  rw [reported, fresh_of_numbered answered, report_fresh]

end CascadeLens.Proofs.WorkerReports
