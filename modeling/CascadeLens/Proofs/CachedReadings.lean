import CascadeLens.Analysis.Project
import CascadeLens.Proofs.CacheEntries
import Mathlib.Data.List.Forall2

/-! Stylesheets that are read with a cache: what one reading does to the cache, and which stylesheets a
key of the cache can stand for. -/

namespace CascadeLens.Proofs.CachedReadings
open CacheEntries

/-- No two of the texts share a digest. -/
def DigestsApart (sources : List Source) : Prop :=
  ∀ a ∈ sources, ∀ b ∈ sources, a.digest = b.digest → a.text = b.text

instance (sources : List Source) : Decidable (DigestsApart sources) :=
  inferInstanceAs (Decidable (∀ a ∈ sources, ∀ b ∈ sources, a.digest = b.digest → a.text = b.text))

/-- Stylesheets that agree in name and text agree in their dialect as well. -/
def Agreed (sources : List Source) : Prop :=
  ∀ a ∈ sources, ∀ b ∈ sources, a.name = b.name → a.text = b.text → a.dialect = b.dialect

instance (sources : List Source) : Decidable (Agreed sources) :=
  inferInstanceAs (Decidable (∀ a ∈ sources, ∀ b ∈ sources, a.name = b.name → a.text = b.text → a.dialect = b.dialect))

section Keys

variable {identity : Identity} {settings : FileSettings} {sources : List Source} {a b : Source}

theorem sourceKey_eq_iff :
    a.key identity settings = b.key identity settings ↔ a.name = b.name ∧ a.digest = b.digest := by
  simp only [Source.key, CacheKey.mk.injEq, and_true]

/-- A key stands for one stylesheet. -/
theorem source_of_key (agreed : Agreed sources) (apart : DigestsApart sources) (first : a ∈ sources) (second : b ∈ sources)
    (same : a.key identity settings = b.key identity settings) : a = b := by
  obtain ⟨name, digest⟩ := sourceKey_eq_iff.mp same
  have text := apart a first b second digest
  have dialect := agreed a first b second name text
  cases a
  cases b
  simp_all

end Keys

section Reading

variable {identity : Identity} {settings : FileSettings}

theorem fresh_files (sources : List Source) :
    (readAllFresh identity settings sources).map (·.file) = sources.map (·.analyze identity settings) := by
  have projected : ∀ start, ((sources.zipIdx start).map fun placed =>
      (⟨placed.2, placed.1.analyze identity settings⟩ : Reading)).map (·.file) = sources.map (·.analyze identity settings) := by
    induction sources with
    | nil => exact fun _ => rfl
    | cons source rest ih => exact fun start => congrArg _ (ih (start + 1))
  exact projected 0

/-- A reading is looked up, and made and put where none is found. -/
theorem read_cases (cache : AnalysisCache) (identity : Identity) (settings : FileSettings) (number : Nat) (source : Source) :
    (∃ reading, cache.lookup (source.key identity settings) = some reading ∧
      cache.read identity settings number source = (reading, { cache with hits := cache.hits + 1 })) ∨
    (cache.lookup (source.key identity settings) = none ∧
      cache.read identity settings number source = (⟨number, source.analyze identity settings⟩,
        { cache with misses := cache.misses + 1 }.put (source.key identity settings)
          (some ⟨number, source.analyze identity settings⟩))) := by
  unfold AnalysisCache.read Cache.get
  cases found : cache.lookup (source.key identity settings) with
  | some reading => exact Or.inl ⟨reading, rfl, rfl⟩
  | none => exact Or.inr ⟨rfl, rfl⟩

end Reading

section Properties

variable {identity : Identity} {settings : FileSettings} {P : CacheKey → Option Reading → Prop} {cache : AnalysisCache}

/-- What holds of the analysis of a stylesheet and of all that is held holds of what is read. -/
theorem read_holds (held : AllHeld P cache) {number : Nat} {source : Source}
    (fresh : P (source.key identity settings) (some ⟨number, source.analyze identity settings⟩)) :
    let answer := cache.read identity settings number source
    P (source.key identity settings) (some answer.1) ∧ AllHeld P answer.2 := by
  rcases read_cases cache identity settings number source with ⟨reading, found, read⟩ | ⟨-, read⟩ <;> rw [read]
  · exact ⟨held.lookup found, held⟩
  · have counted : AllHeld P { cache with misses := cache.misses + 1 } := held
    exact ⟨fresh, counted.put fresh⟩

/-- Readings that have a property with the keys of the stylesheets that they answer. -/
abbrev Answering (P : CacheKey → Option Reading → Prop) (identity : Identity) (settings : FileSettings) :
    List Source → List Reading → Prop :=
  List.Forall₂ fun source reading => P (source.key identity settings) (some reading)

theorem readAll_holds (held : AllHeld P cache) {sources : List Source} {number : Nat}
    (fresh : ∀ place (inside : place < sources.length), P (sources[place].key identity settings)
      (some ⟨number + place, sources[place].analyze identity settings⟩)) :
    let answer := cache.readAll identity settings number sources
    Answering P identity settings sources answer.1 ∧ AllHeld P answer.2 := by
  induction sources generalizing cache number with
  | nil => exact ⟨.nil, held⟩
  | cons source rest ih =>
    obtain ⟨own, onward⟩ := read_holds held (fresh 0 (Nat.succ_pos _))
    have later : ∀ place (inside : place < rest.length), P (rest[place].key identity settings)
        (some ⟨number + 1 + place, rest[place].analyze identity settings⟩) := by
      intro place inside
      rw [Nat.add_assoc, Nat.add_comm 1 place]
      exact fresh (place + 1) (Nat.succ_lt_succ inside)
    obtain ⟨others, left⟩ := ih onward later
    exact ⟨.cons own others, left⟩

end Properties

section Runs

variable {identity : Identity} {settings : FileSettings}

/-- A reading of a stylesheet, made at a place where it stands. -/
def IsReading (identity : Identity) (settings : FileSettings) (sources : List Source) (source : Source)
    (reading : Reading) : Prop :=
  reading.file = source.analyze identity settings ∧ sources[reading.number]? = some source

variable {sources front rest : List Source} {made : List Reading} {cache : AnalysisCache} {source : Source}

theorem IsReading.append {reading : Reading} (own : IsReading identity settings front source reading) (more : List Source) :
    IsReading identity settings (front ++ more) source reading := by
  refine ⟨own.1, ?_⟩
  rw [List.getElem?_append_left (List.getElem?_eq_some_iff.mp own.2).1]
  exact own.2

theorem isReading_made (front : List Source) (source : Source) :
    IsReading identity settings (front ++ [source]) source ⟨front.length, source.analyze identity settings⟩ :=
  ⟨rfl, List.getElem?_concat_length⟩

/-- Each stylesheet of the front has been read, and so has what the cache holds under a key of the stylesheets. -/
structure Traced (identity : Identity) (settings : FileSettings) (sources front : List Source) (made : List Reading)
    (cache : AnalysisCache) : Prop where
  readings : List.Forall₂ (IsReading identity settings front) front made
  held : ∀ source ∈ sources, ∀ reading, (source.key identity settings, some reading) ∈ cache.entries →
    IsReading identity settings front source reading

theorem traced_start (capacity : Nat) : Traced identity settings sources [] [] { capacity } :=
  ⟨.nil, fun _ _ _ member => nomatch member⟩

theorem Traced.read (agreed : Agreed sources) (apart : DigestsApart sources)
    (traced : Traced identity settings sources front made cache) (member : source ∈ sources) :
    let answer := cache.read identity settings front.length source
    Traced identity settings sources (front ++ [source]) (made ++ [answer.1]) answer.2 := by
  have longer := traced.readings.imp fun _ _ own => own.append [source]
  rcases read_cases cache identity settings front.length source with ⟨reading, found, read⟩ | ⟨-, read⟩ <;> rw [read]
  · have own := (traced.held source member reading (lookup_member found)).append [source]
    exact ⟨List.rel_append longer (.cons own .nil), fun other inside value present =>
      (traced.held other inside value present).append [source]⟩
  · refine ⟨List.rel_append longer (.cons (isReading_made front source) .nil), ?_⟩
    intro other inside value present
    rcases put_member present with before | new
    · exact (traced.held other inside value before).append [source]
    · obtain ⟨key, same⟩ := Prod.mk.inj new
      obtain rfl := Option.some.inj same
      rw [source_of_key agreed apart inside member key]
      exact isReading_made front source

theorem Traced.readAll (agreed : Agreed sources) (apart : DigestsApart sources)
    (traced : Traced identity settings sources front made cache) (inside : rest ⊆ sources) :
    let answer := cache.readAll identity settings front.length rest
    Traced identity settings sources (front ++ rest) (made ++ answer.1) answer.2 := by
  induction rest generalizing front made cache with
  | nil => simpa [AnalysisCache.readAll] using traced
  | cons source rest ih =>
    obtain ⟨member, later⟩ := List.cons_subset.mp inside
    have onward := ih (traced.read agreed apart member) later
    simpa [AnalysisCache.readAll] using onward

/-- With room for every stylesheet, each reading is held for as long as stylesheets are read. -/
def Remembered (identity : Identity) (settings : FileSettings) (cache : AnalysisCache) : List Source → List Reading → Prop :=
  List.Forall₂ fun source reading => cache.lookup (source.key identity settings) = some reading

theorem Remembered.at_place (remembered : Remembered identity settings cache front made) {place : Nat}
    (stands : front[place]? = some source) :
    ∃ reading, made[place]? = some reading ∧ cache.lookup (source.key identity settings) = some reading := by
  obtain ⟨inside, rfl⟩ := List.getElem?_eq_some_iff.mp stands
  have answered : place < made.length := remembered.length_eq ▸ inside
  exact ⟨made[place], List.getElem?_eq_getElem answered, remembered.get inside answered⟩

theorem Remembered.read (remembered : Remembered identity settings cache front made)
    (room : cache.entries.length < cache.capacity) (number : Nat) (source : Source) :
    let answer := cache.read identity settings number source
    Remembered identity settings answer.2 (front ++ [source]) (made ++ [answer.1]) := by
  rcases read_cases cache identity settings number source with ⟨reading, found, read⟩ | ⟨missed, read⟩ <;> rw [read]
  · exact List.rel_append remembered (.cons found .nil)
  · refine List.rel_append (remembered.imp ?_) (.cons (lookup_put_self _ _ _) .nil)
    intro other reading held
    have different : other.key identity settings ≠ source.key identity settings := by
      intro same
      rw [same, missed] at held
      cases held
    exact (lookup_put_other { cache with misses := cache.misses + 1 } _ different room).trans held

theorem read_room (identity : Identity) (settings : FileSettings) (cache : AnalysisCache) (number : Nat) (source : Source) :
    (cache.read identity settings number source).2.capacity = cache.capacity ∧
      (cache.read identity settings number source).2.entries.length ≤ cache.entries.length + 1 := by
  rcases read_cases cache identity settings number source with ⟨reading, -, read⟩ | ⟨-, read⟩ <;> rw [read]
  · exact ⟨rfl, Nat.le_succ _⟩
  · exact ⟨put_capacity _ _ _, size_put_le _ _ _⟩

theorem Remembered.readAll (remembered : Remembered identity settings cache front made) (number : Nat)
    (room : cache.entries.length + rest.length ≤ cache.capacity) :
    let answer := cache.readAll identity settings number rest
    Remembered identity settings answer.2 (front ++ rest) (made ++ answer.1) := by
  induction rest generalizing front made cache number with
  | nil => simpa [AnalysisCache.readAll] using remembered
  | cons source rest ih =>
    rw [List.length_cons] at room
    obtain ⟨capacity, size⟩ := read_room identity settings cache number source
    have onward := ih (remembered.read (by omega) number source) (number + 1) (by rw [capacity]; omega)
    simpa [AnalysisCache.readAll] using onward

end Runs

end CascadeLens.Proofs.CachedReadings
