import CascadeLens.Analysis.Workers
import CascadeLens.Proofs.CachedReadings
import Mathlib.Algebra.BigOperators.Group.Finset.Piecewise
import Mathlib.Data.Fintype.Card
import Mathlib.Data.List.OfFn

/-! Stylesheets analyzed by tasks that share one cache, in any interleaving of their steps. Stylesheets that
differ have keys of their own, so what a task finds or puts under its key is the analysis of its stylesheet,
whatever the other tasks put and the cache forgets in between. -/

namespace CascadeLens.Proofs.WorkerInterleaving
open CacheEntries CachedReadings

theorem assign_eq {count : Nat} {α : Type} (values : Fin count → α) (task : Fin count) (value : α) :
    Pool.assign values task value = Function.update values task value := by
  funext other
  by_cases same : other = task <;> simp [Pool.assign, Function.update, same]

section Runs

variable {identity : Identity} {settings : FileSettings} {sources : List Source} {pool : Pool sources.length}

section Stages

variable {task : Fin sources.length}

theorem advance_hit {reading : Reading} (waits : pool.stages task = .waiting)
    (found : pool.cache.lookup ((sources.get task).key identity settings) = some reading) :
    pool.advance identity settings task = ⟨{ pool.cache with hits := pool.cache.hits + 1 },
      Function.update pool.stages task (.holding reading), pool.results⟩ := by
  rw [List.get_eq_getElem] at found
  simp only [Pool.advance, waits, Cache.get, Fin.getElem_fin, found, assign_eq]

theorem advance_miss (waits : pool.stages task = .waiting)
    (absent : pool.cache.lookup ((sources.get task).key identity settings) = none) :
    pool.advance identity settings task = ⟨{ pool.cache with misses := pool.cache.misses + 1 },
      Function.update pool.stages task .missed, pool.results⟩ := by
  rw [List.get_eq_getElem] at absent
  simp only [Pool.advance, waits, Cache.get, Fin.getElem_fin, absent, assign_eq]

theorem advance_put (missed : pool.stages task = .missed) :
    pool.advance identity settings task =
      ⟨pool.cache.put ((sources.get task).key identity settings) (some ⟨task, (sources.get task).analyze identity settings⟩),
        Function.update pool.stages task (.holding ⟨task, (sources.get task).analyze identity settings⟩), pool.results⟩ := by
  simp only [Pool.advance, missed, Fin.getElem_fin, List.get_eq_getElem, assign_eq]

theorem advance_store {reading : Reading} (held : pool.stages task = .holding reading) :
    pool.advance identity settings task =
      ⟨pool.cache, Function.update pool.stages task .stored, Function.update pool.results task (some reading)⟩ := by
  simp only [Pool.advance, held, assign_eq]

theorem advance_stored (done : pool.stages task = .stored) : pool.advance identity settings task = pool := by
  simp only [Pool.advance, done]

/-- A step moves no other task. -/
theorem advance_other {other : Fin sources.length} (apart : other ≠ task) :
    (pool.advance identity settings task).stages other = pool.stages other ∧
      (pool.advance identity settings task).results other = pool.results other := by
  cases stage : pool.stages task with
  | waiting =>
    cases found : pool.cache.lookup ((sources.get task).key identity settings) with
    | some reading => simp [advance_hit stage found, apart]
    | none => simp [advance_miss stage found, apart]
  | missed => simp [advance_put stage, apart]
  | holding reading => simp [advance_store stage, apart]
  | stored => simp [advance_stored stage]

theorem run_other {other : Fin sources.length} {schedule : List (Fin sources.length)} (absent : other ∉ schedule) :
    (pool.run identity settings schedule).stages other = pool.stages other ∧
      (pool.run identity settings schedule).results other = pool.results other := by
  induction schedule generalizing pool with
  | nil => exact ⟨rfl, rfl⟩
  | cons task rest ih =>
    obtain ⟨apart, later⟩ : other ≠ task ∧ other ∉ rest := by simpa using absent
    obtain ⟨stages, results⟩ := ih later
    exact ⟨stages.trans (advance_other apart).1, results.trans (advance_other apart).2⟩

/-- A task that nobody interrupts reads its stylesheet with the cache. -/
theorem uninterrupted (waits : pool.stages task = .waiting) :
    (pool.run identity settings [task, task, task]).cache = (pool.cache.read identity settings task (sources.get task)).2 ∧
      (pool.run identity settings [task, task, task]).results task =
        some (pool.cache.read identity settings task (sources.get task)).1 := by
  simp only [Pool.run, List.foldl_cons, List.foldl_nil]
  rcases read_cases pool.cache identity settings task (sources.get task) with ⟨reading, found, read⟩ | ⟨absent, read⟩
  · rw [advance_hit waits found, read]
    simp only [Pool.advance, assign_eq, Function.update_self, and_self]
  · rw [advance_miss waits absent, read]
    simp only [Pool.advance, assign_eq, Function.update_self]
    exact ⟨rfl, rfl⟩

end Stages

/-- What a task has in hand or has stored has a property with the key of its stylesheet, like all that is held. -/
structure Kept (identity : Identity) (settings : FileSettings) (P : CacheKey → Option Reading → Prop)
    (pool : Pool sources.length) : Prop where
  held : AllHeld P pool.cache
  holding : ∀ task reading, pool.stages task = .holding reading → P ((sources.get task).key identity settings) (some reading)
  stored : ∀ task, pool.stages task = .stored →
    ∃ reading, pool.results task = some reading ∧ P ((sources.get task).key identity settings) (some reading)

section Properties

variable {P : CacheKey → Option Reading → Prop} {task : Fin sources.length}

theorem kept_start {cache : AnalysisCache} (held : AllHeld P cache) :
    Kept identity settings P (Pool.start sources.length cache) where
  held := held
  holding := nofun
  stored := nofun

/-- A step moves one task to its next stage, which stores nothing yet. -/
private theorem Kept.move (kept : Kept identity settings P pool) {cache : AnalysisCache} {stage : Stage}
    (held : AllHeld P cache)
    (holding : ∀ reading, stage = .holding reading → P ((sources.get task).key identity settings) (some reading))
    (unstored : stage ≠ .stored) :
    Kept identity settings P ⟨cache, Function.update pool.stages task stage, pool.results⟩ where
  held := held
  holding other reading holds := by
    by_cases same : other = task
    · subst same
      exact holding reading ((Function.update_self other stage pool.stages).symm.trans holds)
    · exact kept.holding other reading ((Function.update_of_ne same stage pool.stages).symm.trans holds)
  stored other done := by
    by_cases same : other = task
    · subst same
      exact absurd ((Function.update_self other stage pool.stages).symm.trans done) unstored
    · exact kept.stored other ((Function.update_of_ne same stage pool.stages).symm.trans done)

private theorem Kept.store (kept : Kept identity settings P pool) {reading : Reading}
    (held : pool.stages task = .holding reading) :
    Kept identity settings P
      ⟨pool.cache, Function.update pool.stages task .stored, Function.update pool.results task (some reading)⟩ where
  held := kept.held
  holding other reading holds := by
    by_cases same : other = task
    · subst same
      cases (Function.update_self other Stage.stored pool.stages).symm.trans holds
    · exact kept.holding other reading ((Function.update_of_ne same _ pool.stages).symm.trans holds)
  stored other done := by
    by_cases same : other = task
    · subst same
      exact ⟨reading, Function.update_self .., kept.holding other reading held⟩
    · obtain ⟨found, stored, own⟩ := kept.stored other ((Function.update_of_ne same _ pool.stages).symm.trans done)
      exact ⟨found, (Function.update_of_ne same ..).trans stored, own⟩

variable (fresh : ∀ task : Fin sources.length,
  P ((sources.get task).key identity settings) (some ⟨task, (sources.get task).analyze identity settings⟩))

include fresh

theorem Kept.advance (kept : Kept identity settings P pool) (task : Fin sources.length) :
    Kept identity settings P (pool.advance identity settings task) := by
  cases stage : pool.stages task with
  | waiting =>
    cases found : pool.cache.lookup (sources[task].key identity settings) with
    | some reading =>
      rw [advance_hit stage found]
      refine kept.move kept.held ?_ (by simp)
      rintro _ ⟨⟩
      exact kept.held.lookup found
    | none =>
      rw [advance_miss stage found]
      exact kept.move kept.held (by simp) (by simp)
  | missed =>
    rw [advance_put stage]
    refine kept.move (kept.held.put (fresh task)) ?_ (by simp)
    rintro _ ⟨⟩
    exact fresh task
  | holding reading =>
    rw [advance_store stage]
    exact kept.store stage
  | stored =>
    rw [advance_stored stage]
    exact kept

theorem Kept.run (kept : Kept identity settings P pool) (schedule : List (Fin sources.length)) :
    Kept identity settings P (pool.run identity settings schedule) := by
  induction schedule generalizing pool with
  | nil => exact kept
  | cons task rest ih => exact ih (kept.advance fresh task)

end Properties

section Counts

/-- The number of look-ups that a task has made. -/
def asked : Stage → Nat
  | .waiting => 0
  | _ => 1

/-- The sum of all tasks grows by what one of them adds. -/
private theorem asked_update (task : Fin sources.length) (stages : Fin sources.length → Stage) (stage : Stage) :
    ∑ other, asked (Function.update stages task stage other) + asked (stages task) =
      ∑ other, asked (stages other) + asked stage := by
  have moved : (fun other => asked (Function.update stages task stage other)) =
      Function.update (asked ∘ stages) task (asked stage) := Function.comp_update asked stages task stage
  have whole := Finset.add_sum_erase Finset.univ (asked ∘ stages) (Finset.mem_univ task)
  rw [moved, Finset.sum_update_of_mem (Finset.mem_univ task), Finset.sdiff_singleton_eq_erase]
  simp only [Function.comp_apply] at whole ⊢
  omega

/-- The cache keeps to its capacity and has counted a look-up for each task that is past it. -/
structure Measured (cache : AnalysisCache) (pool : Pool sources.length) : Prop where
  capacity : pool.cache.capacity = cache.capacity
  bounded : pool.cache.entries.length ≤ cache.capacity
  counted : pool.cache.hits + pool.cache.misses = cache.hits + cache.misses + ∑ task, asked (pool.stages task)

theorem measured_start {cache : AnalysisCache} (bounded : cache.size ≤ cache.capacity) :
    Measured cache (Pool.start sources.length cache) where
  capacity := rfl
  bounded := bounded
  counted := by simp [Pool.start, asked]

variable {cache : AnalysisCache} {task : Fin sources.length}

private theorem Measured.move (measured : Measured cache pool) {held : AnalysisCache} {stage : Stage}
    {results : Fin sources.length → Option Reading} (capacity : held.capacity = cache.capacity)
    (bounded : held.entries.length ≤ cache.capacity)
    (counted : held.hits + held.misses + asked (pool.stages task) = pool.cache.hits + pool.cache.misses + asked stage) :
    Measured cache ⟨held, Function.update pool.stages task stage, results⟩ where
  capacity := capacity
  bounded := bounded
  counted := by
    have sum := asked_update task pool.stages stage
    have before := measured.counted
    dsimp only
    omega

theorem Measured.advance (room : 1 ≤ cache.capacity) (measured : Measured cache pool) (task : Fin sources.length) :
    Measured cache (pool.advance identity settings task) := by
  have capacity := measured.capacity
  have bounded := measured.bounded
  cases stage : pool.stages task with
  | waiting =>
    cases found : pool.cache.lookup (sources[task].key identity settings) with
    | some reading =>
      rw [advance_hit stage found]
      refine measured.move capacity bounded ?_
      rw [stage]
      dsimp only [asked]
      omega
    | none =>
      rw [advance_miss stage found]
      refine measured.move capacity bounded ?_
      rw [stage]
      dsimp only [asked]
      omega
  | missed =>
    rw [advance_put stage]
    refine measured.move ?_ ?_ ?_
    · rw [put_capacity, capacity]
    · rw [← capacity]
      exact put_bounded (capacity ▸ room) (capacity ▸ bounded) _ _
    · rw [stage, put_hits, put_misses]
      rfl
  | holding reading =>
    rw [advance_store stage]
    refine measured.move capacity bounded ?_
    rw [stage]
    rfl
  | stored =>
    rw [advance_stored stage]
    exact measured

theorem Measured.run (room : 1 ≤ cache.capacity) (measured : Measured cache pool) (schedule : List (Fin sources.length)) :
    Measured cache (pool.run identity settings schedule) := by
  induction schedule generalizing pool with
  | nil => exact measured
  | cons task rest ih => exact ih (measured.advance room task)

end Counts

section Faithfulness

/-- The entry under the key of a stylesheet, if there is one, is the analysis of that stylesheet. -/
def Faithful (identity : Identity) (settings : FileSettings) (sources : List Source) (cache : AnalysisCache) : Prop :=
  ∀ source ∈ sources, ∀ value, (source.key identity settings, value) ∈ cache.entries →
    ∃ reading, value = some reading ∧ reading.file = source.analyze identity settings

/-- What an entry has to be for a cache to be faithful. -/
def Answered (identity : Identity) (settings : FileSettings) (sources : List Source) (key : CacheKey)
    (value : Option Reading) : Prop :=
  ∀ source ∈ sources, source.key identity settings = key →
    ∃ reading, value = some reading ∧ reading.file = source.analyze identity settings

theorem faithful_iff {cache : AnalysisCache} :
    Faithful identity settings sources cache ↔ AllHeld (Answered identity settings sources) cache := by
  constructor
  · rintro faithful _ value member source inside rfl
    exact faithful source inside value member
  · intro held source inside value member
    exact held _ value member source inside rfl

theorem answered_fresh (agreed : Agreed sources) (apart : DigestsApart sources) {own : Source} (member : own ∈ sources)
    (number : Nat) : Answered identity settings sources (own.key identity settings)
      (some ⟨number, own.analyze identity settings⟩) := by
  intro source inside same
  rw [source_of_key agreed apart inside member same]
  exact ⟨_, rfl, rfl⟩

/-- Stylesheets of which no two agree in name and text. -/
def Different (sources : List Source) : Prop := sources.Pairwise fun a b => a.name ≠ b.name ∨ a.text ≠ b.text

instance (sources : List Source) : Decidable (Different sources) := inferInstanceAs (Decidable (List.Pairwise _ _))

theorem place_of_different (different : Different sources) {place other : Nat} (inside : place < sources.length)
    (inside' : other < sources.length) (name : sources[place].name = sources[other].name)
    (text : sources[place].text = sources[other].text) : place = other := by
  have apart : ∀ i j (h : i < sources.length) (h' : j < sources.length), i < j →
      sources[i].name ≠ sources[j].name ∨ sources[i].text ≠ sources[j].text :=
    List.pairwise_iff_getElem.mp different
  rcases Nat.lt_trichotomy place other with before | same | behind
  · exact absurd text ((apart place other inside inside' before).resolve_left (absurd name))
  · exact same
  · exact absurd text.symm ((apart other place inside' inside behind).resolve_left (absurd name.symm))

theorem agreed_of_different (different : Different sources) : Agreed sources := by
  intro a first b second name text
  obtain ⟨place, inside, rfl⟩ := List.mem_iff_getElem.mp first
  obtain ⟨other, inside', rfl⟩ := List.mem_iff_getElem.mp second
  obtain rfl := place_of_different different inside inside' name text
  rfl

end Faithfulness

section Progress

variable (identity : Identity) (settings : FileSettings)

/-- The number of steps that a task needs at most. -/
def needed : Stage → Nat
  | .waiting => 3
  | .missed => 2
  | .holding _ => 1
  | .stored => 0

/-- A step brings its task nearer to its end and moves no other. -/
private theorem advance_stages (pool : Pool sources.length) (task : Fin sources.length) :
    ∃ stage, (pool.advance identity settings task).stages = Function.update pool.stages task stage ∧
      needed stage ≤ needed (pool.stages task) - 1 := by
  cases stage : pool.stages task with
  | waiting =>
    cases found : pool.cache.lookup (sources[task].key identity settings) with
    | some reading => exact ⟨.holding reading, by rw [advance_hit stage found], by simp [needed]⟩
    | none => exact ⟨.missed, by rw [advance_miss stage found], by simp [needed]⟩
  | missed => exact ⟨_, by rw [advance_put stage], by simp [needed]⟩
  | holding reading => exact ⟨.stored, by rw [advance_store stage], by simp [needed]⟩
  | stored =>
    refine ⟨.stored, ?_, by simp [needed]⟩
    rw [advance_stored stage, ← stage, Function.update_eq_self]

theorem needed_advance (pool : Pool sources.length) (task other : Fin sources.length) :
    needed ((pool.advance identity settings task).stages other) ≤
      needed (pool.stages other) - (if task = other then 1 else 0) := by
  obtain ⟨stage, stages, nearer⟩ := advance_stages identity settings pool task
  rw [stages]
  by_cases same : task = other
  · subst same
    rw [if_pos rfl, Function.update_self]
    exact nearer
  · rw [if_neg same, Function.update_of_ne (Ne.symm same), Nat.sub_zero]

theorem needed_run (pool : Pool sources.length) (schedule : List (Fin sources.length)) (task : Fin sources.length) :
    needed ((pool.run identity settings schedule).stages task) ≤ needed (pool.stages task) - schedule.count task := by
  induction schedule generalizing pool with
  | nil => exact Nat.le_refl _
  | cons first rest ih =>
    have step := needed_advance identity settings pool first task
    have later := ih (pool.advance identity settings first)
    rw [List.count_cons]
    simp only [beq_iff_eq]
    have onward : pool.run identity settings (first :: rest) =
        (pool.advance identity settings first).run identity settings rest := rfl
    rw [onward]
    omega

/-- Three turns for each task are enough. -/
theorem finished_of_turns {cache : AnalysisCache} {schedule : List (Fin sources.length)}
    (turns : ∀ task, 3 ≤ schedule.count task) :
    ((Pool.start sources.length cache).run identity settings schedule).Finished := by
  intro task
  have left := needed_run identity settings (Pool.start sources.length cache) schedule task
  have enough := turns task
  have begun : needed ((Pool.start sources.length cache).stages task) = 3 := rfl
  cases stage : ((Pool.start sources.length cache).run identity settings schedule).stages task with
  | stored => rfl
  | waiting | missed | holding =>
    rw [stage, begun] at left
    simp only [needed] at left
    omega

theorem inTurn_count {count : Nat} (task : Fin count) : 3 ≤ (Pool.inTurn count).count task := by
  have inside : [task, task, task].Sublist (Pool.inTurn count) :=
    List.sublist_flatten_of_mem (List.mem_map_of_mem (List.mem_finRange task))
  calc 3 = [task, task, task].count task := by simp
    _ ≤ (Pool.inTurn count).count task := inside.count_le task

theorem finished_complete (cache : AnalysisCache) (schedule : List (Fin sources.length)) :
    ((Pool.start sources.length cache).complete identity settings schedule).Finished := by
  refine finished_of_turns identity settings fun task => ?_
  have enough := inTurn_count task
  rw [List.count_append]
  omega

end Progress

end Runs

/-- However the steps of the tasks interleave: the cache keeps to its capacity, what it holds under the keys of
the stylesheets is their analysis, tasks that take their turns come to an end, and then the results are those of
a serial analysis without a cache, one look-up having been made for each stylesheet. -/
theorem interleavings_agree (identity : Identity) (settings : FileSettings) (sources : List Source)
    (different : Different sources) (apart : DigestsApart sources) (cache : AnalysisCache) (room : 1 ≤ cache.capacity)
    (bounded : cache.size ≤ cache.capacity) (faithful : Faithful identity settings sources cache)
    (schedule : List (Fin sources.length)) :
    let pool := (Pool.start sources.length cache).run identity settings schedule
    pool.cache.size ≤ cache.capacity ∧ Faithful identity settings sources pool.cache ∧
      ((∀ task, 3 ≤ schedule.count task) → pool.Finished) ∧
      (pool.Finished →
        List.ofFn pool.files = (readAllFresh identity settings sources).map (fun reading => some reading.file) ∧
        pool.cache.hits + pool.cache.misses = cache.hits + cache.misses + sources.length) := by
  intro pool
  have fresh : ∀ task : Fin sources.length, Answered identity settings sources (sources[task].key identity settings)
      (some ⟨task, sources[task].analyze identity settings⟩) := fun task =>
    answered_fresh (agreed_of_different different) apart (List.getElem_mem task.isLt) task
  have kept : Kept identity settings (Answered identity settings sources) pool :=
    (kept_start (faithful_iff.mp faithful)).run fresh schedule
  have measured : Measured cache pool := (measured_start bounded).run room schedule
  refine ⟨measured.bounded, faithful_iff.mpr kept.held, finished_of_turns identity settings, ?_⟩
  intro finished
  constructor
  · have stored : pool.files = fun task => some (sources[task].analyze identity settings) := by
      funext task
      obtain ⟨reading, result, answered⟩ := kept.stored task (finished task)
      obtain ⟨_, ⟨⟩, file⟩ := answered sources[task] (List.getElem_mem task.isLt) rfl
      rw [Pool.files, result, Option.map_some, file]
    have listed : List.ofFn pool.files = (sources.map (·.analyze identity settings)).map some := by
      rw [stored, List.map_map]
      exact List.ofFn_getElem_eq_map sources fun source => some (source.analyze identity settings)
    rw [listed, ← fresh_files, List.map_map]
    rfl
  · have all : ∀ task, asked (pool.stages task) = 1 := fun task => by rw [finished task]; rfl
    rw [measured.counted, Finset.sum_congr rfl fun task _ => all task]
    simp [Finset.card_univ]

def menuSheet (name : String) : Source := ⟨name.toList, ".menu\x7bcolor:red\x7d".toList, .css⟩

def menuSources : List Source := [menuSheet "a.css", menuSheet "b.css", menuSheet "c.css"]

def menuTarget : Identity := { classes := ["menu".toList] }

def menuReading : Reading := ⟨7, (menuSheet "b.css").analyze menuTarget {}⟩

/-- A full cache that holds the reading of the second stylesheet. -/
def menuCache : AnalysisCache :=
  Cache.put { capacity := 1 } ((menuSheet "b.css").key menuTarget {}) (some menuReading)

/-- The second task finds its reading, which is forgotten for that of the first before it is stored. -/
def menuSchedule : List (Fin menuSources.length) :=
  have three : 3 = menuSources.length := rfl
  ([0, 1, 0, 2, 1, 2, 0, 1, 2] : List (Fin 3)).map (Fin.cast three)

theorem menu_tasks_agree : Different menuSources ∧ DigestsApart menuSources ∧ 1 ≤ menuCache.capacity ∧
    menuCache.size ≤ menuCache.capacity ∧ Faithful menuTarget {} menuSources menuCache ∧
    (∀ task, 3 ≤ menuSchedule.count task) ∧
    List.ofFn ((Pool.start menuSources.length menuCache).run menuTarget {} menuSchedule).files =
      (readAllFresh menuTarget {} menuSources).map fun reading => some reading.file := by
  have different : Different menuSources := by decide
  have apart : DigestsApart menuSources := by
    have same : ∀ source ∈ menuSources, source.text = (menuSheet "a.css").text := by simp [menuSources, menuSheet]
    intro a first b second _
    rw [same a first, same b second]
  have empty : Faithful menuTarget {} menuSources { capacity := 1 } := fun _ _ _ held => nomatch held
  have member : menuSheet "b.css" ∈ menuSources := by simp [menuSources]
  have faithful : Faithful menuTarget {} menuSources menuCache := by
    rw [menuCache, faithful_iff]
    exact (faithful_iff.mp empty).put (answered_fresh (agreed_of_different different) apart member 7)
  have turns : ∀ task, 3 ≤ menuSchedule.count task := by decide
  have room : 1 ≤ menuCache.capacity := Nat.le_refl 1
  have bounded : menuCache.size ≤ menuCache.capacity := Nat.le_refl 1
  obtain ⟨-, -, ends, agree⟩ :=
    interleavings_agree menuTarget {} menuSources different apart menuCache room bounded faithful menuSchedule
  exact ⟨different, apart, room, bounded, faithful, turns, (agree (ends turns)).1⟩

end CascadeLens.Proofs.WorkerInterleaving
