import CascadeLens.Analysis.Project
import CascadeLens.Proofs.CacheEntries

/-! One cache shared by a session of analyses. The key of the cache has a place for everything that
an analysis reads except the dialect, so an answer can only be stale in the dialect it was read in,
and a session is free of stale answers exactly if its sources do not change dialect under one key. -/

namespace CascadeLens.Proofs.SessionTransparency
open CacheEntries

structure Inquiry where
  source : Source
  identity : Identity
  config : Config

inductive SessionStep where
  | analyze (inquiry : Inquiry)
  | clear

def Inquiry.fresh (inquiry : Inquiry) : FileAnalysis :=
  inquiry.source.analyze inquiry.identity inquiry.config.toFileSettings

def Inquiry.key (inquiry : Inquiry) : CacheKey :=
  inquiry.source.key inquiry.identity inquiry.config.toFileSettings

/-- An analysis with a cache, which is left alone where the settings do not allow for one. -/
def Inquiry.answer (inquiry : Inquiry) (cache : AnalysisCache) (number : Nat) : Reading × AnalysisCache :=
  if inquiry.config.useCache then
    cache.read inquiry.identity inquiry.config.toFileSettings number inquiry.source
  else (⟨number, inquiry.fresh⟩, cache)

def answers (cache : AnalysisCache) (number : Nat) : List SessionStep → List (Inquiry × FileAnalysis)
  | [] => []
  | .clear :: rest => answers cache.clear number rest
  | .analyze inquiry :: rest =>
    let (reading, cache) := inquiry.answer cache number
    (inquiry, reading.file) :: answers cache (number + 1) rest

def Transparent (cache : AnalysisCache) (number : Nat) (steps : List SessionStep) : Prop :=
  ∀ told ∈ answers cache number steps, told.2 = told.1.fresh

def inquiries : List SessionStep → List Inquiry
  | [] => []
  | .clear :: rest => inquiries rest
  | .analyze inquiry :: rest => inquiry :: inquiries rest

/-- Inquiries before the cache is cleared that make use of it. -/
def upcoming : List SessionStep → List Inquiry
  | [] => []
  | .clear :: _ => []
  | .analyze inquiry :: rest => if inquiry.config.useCache then inquiry :: upcoming rest else upcoming rest

/-- Inquiries that differ at most in the dialect of the source and in settings of no consequence. -/
def Alike (a b : Inquiry) : Prop :=
  a.source.name = b.source.name ∧ a.source.text = b.source.text ∧ a.identity = b.identity ∧
    a.config.toFileSettings = b.config.toFileSettings

/-- Between two times the cache is cleared, inquiries that are alike agree on the dialect. -/
def Agreeing : List SessionStep → Prop
  | [] => True
  | .clear :: rest => Agreeing rest
  | .analyze inquiry :: rest =>
    (inquiry.config.useCache → ∀ other ∈ upcoming rest, Alike other inquiry →
      other.source.dialect = inquiry.source.dialect) ∧ Agreeing rest

/-- No two of the texts share a digest. -/
def CollisionFree (all : List Inquiry) : Prop :=
  ∀ a ∈ all, ∀ b ∈ all, a.source.digest = b.source.digest → a.source.text = b.source.text

theorem key_eq_iff {a b : Inquiry} : a.key = b.key ↔ a.source.name = b.source.name ∧
    a.source.digest = b.source.digest ∧ a.identity = b.identity ∧ a.config.toFileSettings = b.config.toFileSettings := by
  simp only [Inquiry.key, Source.key, CacheKey.mk.injEq]

theorem key_of_alike {a b : Inquiry} (alike : Alike a b) : a.key = b.key := by
  obtain ⟨name, text, identity, settings⟩ := alike
  exact key_eq_iff.mpr ⟨name, by simp only [Source.digest, text], identity, settings⟩

theorem alike_of_key {all : List Inquiry} (distinct : CollisionFree all) {a b : Inquiry} (first : a ∈ all)
    (second : b ∈ all) (same : a.key = b.key) : Alike a b := by
  obtain ⟨name, digest, identity, settings⟩ := key_eq_iff.mp same
  exact ⟨name, distinct a first b second digest, identity, settings⟩

theorem fresh_of_alike {a b : Inquiry} (alike : Alike a b) :
    a.fresh = ({ b.source with dialect := a.source.dialect }).analyze b.identity b.config.toFileSettings := by
  obtain ⟨name, text, identity, settings⟩ := alike
  have source : a.source = ⟨b.source.name, b.source.text, a.source.dialect⟩ := by rw [← name, ← text]
  rw [Inquiry.fresh, source, identity, settings]

private theorem parse_dialect {source name : Text} {dialect : Dialect} {sheet : Stylesheet}
    (parsed : Stylesheet.parse source name dialect = .ok sheet) : sheet.dialect = dialect := by
  unfold Stylesheet.parse at parsed
  split at parsed
  · cases parsed
  · cases parsed
    rfl

/-- Whatever comes of an analysis is reported in the dialect of its source. -/
theorem fresh_dialect (inquiry : Inquiry) : inquiry.fresh.dialect = inquiry.source.dialect := by
  unfold Inquiry.fresh Source.analyze
  split
  · rfl
  · dsimp only
    split
    · rfl
    · split
      next => rfl
      next sheet parsed =>
        split
        · rfl
        · exact parse_dialect parsed

private theorem answer_cases (inquiry : Inquiry) (cache : AnalysisCache) (number : Nat) :
    (inquiry.config.useCache = true ∧ ∃ reading, cache.lookup inquiry.key = some reading ∧
      inquiry.answer cache number = (reading, { cache with hits := cache.hits + 1 })) ∨
    (inquiry.config.useCache = true ∧ cache.lookup inquiry.key = none ∧
      inquiry.answer cache number = (⟨number, inquiry.fresh⟩,
        { cache with misses := cache.misses + 1 }.put inquiry.key (some ⟨number, inquiry.fresh⟩))) ∨
    (inquiry.config.useCache = false ∧ inquiry.answer cache number = (⟨number, inquiry.fresh⟩, cache)) := by
  cases allowed : inquiry.config.useCache with
  | false => exact Or.inr (Or.inr ⟨rfl, by simp [Inquiry.answer, allowed]⟩)
  | true =>
    have reads : inquiry.answer cache number = cache.read inquiry.identity inquiry.config.toFileSettings number
        inquiry.source := by simp [Inquiry.answer, allowed]
    unfold AnalysisCache.read Cache.get at reads
    cases found : cache.lookup inquiry.key with
    | some reading =>
      rw [show cache.lookup (inquiry.source.key inquiry.identity inquiry.config.toFileSettings) = some reading
        from found] at reads
      exact Or.inl ⟨rfl, reading, rfl, reads⟩
    | none =>
      rw [show cache.lookup (inquiry.source.key inquiry.identity inquiry.config.toFileSettings) = none
        from found] at reads
      exact Or.inr (Or.inl ⟨rfl, rfl, reads⟩)

/-- Each reading that is held answers a past inquiry of its key. -/
def Backed (past : List Inquiry) (cache : AnalysisCache) : Prop :=
  ∀ key reading, (key, some reading) ∈ cache.entries → ∃ origin ∈ past, origin.key = key ∧ reading.file = origin.fresh

private theorem backed_cleared (cache : AnalysisCache) : Backed [] cache.clear :=
  fun _ _ member => nomatch member

/-- The inquiries whose answers may be held after one more. -/
def remembered (inquiry : Inquiry) (past : List Inquiry) : List Inquiry :=
  if inquiry.config.useCache then inquiry :: past else past

private theorem mem_remembered {inquiry origin : Inquiry} {past : List Inquiry}
    (member : origin ∈ remembered inquiry past) : (inquiry.config.useCache = true ∧ origin = inquiry) ∨ origin ∈ past := by
  unfold remembered at member
  split at member
  next allowed => exact (List.mem_cons.mp member).imp_left fun same => ⟨allowed, same⟩
  next => exact Or.inr member

private theorem remembered_subset {inquiry : Inquiry} {past all : List Inquiry} (own : inquiry ∈ all)
    (known : past ⊆ all) : remembered inquiry past ⊆ all := by
  intro origin member
  rcases mem_remembered member with ⟨-, rfl⟩ | before
  · exact own
  · exact known before

theorem answer_backed {past : List Inquiry} {cache : AnalysisCache} (backed : Backed past cache) (inquiry : Inquiry)
    (number : Nat) : Backed (remembered inquiry past) (inquiry.answer cache number).2 := by
  rcases answer_cases inquiry cache number with ⟨allowed, _, _, read⟩ | ⟨allowed, _, read⟩ | ⟨refused, read⟩
  · rw [read, remembered, if_pos allowed]
    intro key reading member
    obtain ⟨origin, inside, same, answered⟩ := backed key reading member
    exact ⟨origin, List.mem_cons_of_mem _ inside, same, answered⟩
  · rw [read, remembered, if_pos allowed]
    intro key reading member
    rcases put_member member with old | new
    · obtain ⟨origin, inside, same, answered⟩ := backed key reading old
      exact ⟨origin, List.mem_cons_of_mem _ inside, same, answered⟩
    · cases new
      exact ⟨inquiry, List.mem_cons_self, rfl, rfl⟩
  · rw [read, remembered, refused]
    exact backed

/-- An answer is the fresh one to the inquiry itself, or to a past inquiry of the same key. -/
theorem answer_origin {past : List Inquiry} {cache : AnalysisCache} (backed : Backed past cache) (inquiry : Inquiry)
    (number : Nat) : ∃ origin, (origin = inquiry ∨ inquiry.config.useCache = true ∧ origin ∈ past) ∧
      origin.key = inquiry.key ∧ (inquiry.answer cache number).1.file = origin.fresh := by
  rcases answer_cases inquiry cache number with ⟨allowed, reading, found, read⟩ | ⟨_, _, read⟩ | ⟨_, read⟩
  · obtain ⟨origin, inside, same, answered⟩ := backed _ _ (lookup_member found)
    exact ⟨origin, Or.inr ⟨allowed, inside⟩, same, by rw [read, answered]⟩
  · exact ⟨inquiry, Or.inl rfl, rfl, by rw [read]⟩
  · exact ⟨inquiry, Or.inl rfl, rfl, by rw [read]⟩

private theorem first_or_later {inquiry other : Inquiry} {rest : List SessionStep}
    (member : other ∈ upcoming (.analyze inquiry :: rest)) :
    (inquiry.config.useCache = true ∧ other = inquiry) ∨ other ∈ upcoming rest := by
  unfold upcoming at member
  split at member
  next allowed => exact (List.mem_cons.mp member).imp_left fun same => ⟨allowed, same⟩
  next => exact Or.inr member

private theorem upcoming_later {inquiry other : Inquiry} {rest : List SessionStep} (member : other ∈ upcoming rest) :
    other ∈ upcoming (.analyze inquiry :: rest) := by
  unfold upcoming
  split
  · exact List.mem_cons_of_mem _ member
  · exact member

section Runs

variable {all : List Inquiry} (distinct : CollisionFree all)

include distinct

private theorem answers_alike {past : List Inquiry} {cache : AnalysisCache} {number : Nat} {steps : List SessionStep}
    (backed : Backed past cache) (pastKnown : past ⊆ all) (known : inquiries steps ⊆ all) :
    ∀ told ∈ answers cache number steps, ∃ origin, Alike origin told.1 ∧ told.2 = origin.fresh := by
  induction steps generalizing past cache number with
  | nil => exact fun _ member => nomatch member
  | cons step rest ih =>
    cases step with
    | clear => exact ih (backed_cleared cache) (List.nil_subset _) known
    | analyze inquiry =>
      obtain ⟨own, later⟩ := List.cons_subset.mp known
      intro told member
      rcases List.mem_cons.mp member with rfl | member
      · obtain ⟨origin, place, same, answered⟩ := answer_origin backed inquiry number
        have inside : origin ∈ all := place.elim (fun same => same ▸ own) fun ⟨_, past⟩ => pastKnown past
        exact ⟨origin, alike_of_key distinct inside own same, answered⟩
      · exact ih (answer_backed backed inquiry number) (remembered_subset own pastKnown) later told member

/-- If past and future agree on dialects, nothing that is held is stale. -/
private theorem transparent_of_agreeing {past : List Inquiry} {cache : AnalysisCache} {number : Nat}
    {steps : List SessionStep} (backed : Backed past cache) (pastKnown : past ⊆ all) (known : inquiries steps ⊆ all)
    (settled : ∀ origin ∈ past, ∀ other ∈ upcoming steps, Alike other origin →
      other.source.dialect = origin.source.dialect)
    (agreeing : Agreeing steps) : Transparent cache number steps := by
  induction steps generalizing past cache number with
  | nil => exact fun _ member => nomatch member
  | cons step rest ih =>
    cases step with
    | clear => exact ih (backed_cleared cache) (List.nil_subset _) known (fun _ member => nomatch member) agreeing
    | analyze inquiry =>
      obtain ⟨own, later⟩ := List.cons_subset.mp known
      obtain ⟨ahead, agreeing⟩ := agreeing
      intro told member
      rcases List.mem_cons.mp member with rfl | member
      · obtain ⟨origin, rfl | ⟨allowed, before⟩, same, answered⟩ := answer_origin backed inquiry number
        · exact answered
        · have alike : Alike inquiry origin := alike_of_key distinct own (pastKnown before) same.symm
          have next : inquiry ∈ upcoming (.analyze inquiry :: rest) := by simp [upcoming, allowed]
          have dialect := settled origin before inquiry next alike
          exact answered.trans (by rw [fresh_of_alike alike, dialect, Inquiry.fresh])
      · refine ih (answer_backed backed inquiry number) (remembered_subset own pastKnown) later ?_ agreeing told member
        intro origin place other next alike
        rcases mem_remembered place with ⟨allowed, rfl⟩ | before
        · exact ahead allowed other next alike
        · exact settled origin before other (upcoming_later next) alike

end Runs

private theorem answer_room {inquiry : Inquiry} {cache : AnalysisCache} {rest : List SessionStep} (number : Nat)
    (room : cache.entries.length + (inquiries (.analyze inquiry :: rest)).length ≤ cache.capacity) :
    (inquiry.answer cache number).2.entries.length + (inquiries rest).length ≤
      (inquiry.answer cache number).2.capacity := by
  simp only [inquiries, List.length_cons] at room
  rcases answer_cases inquiry cache number with ⟨-, _, -, read⟩ | ⟨-, -, read⟩ | ⟨-, read⟩ <;> rw [read]
  · dsimp only
    omega
  · have size := size_put_le { cache with misses := cache.misses + 1 } inquiry.key (some ⟨number, inquiry.fresh⟩)
    rw [put_capacity]
    dsimp only at size ⊢
    omega
  · dsimp only
    omega

private theorem answer_held {inquiry : Inquiry} (cache : AnalysisCache) (number : Nat)
    (allowed : inquiry.config.useCache = true) :
    (inquiry.answer cache number).2.lookup inquiry.key = some (inquiry.answer cache number).1 := by
  rcases answer_cases inquiry cache number with ⟨-, _, found, read⟩ | ⟨-, -, read⟩ | ⟨refused, -⟩
  · rw [read]
    exact found
  · rw [read]
    exact lookup_put_self _ _ _
  · rw [allowed] at refused
    cases refused

private theorem answer_keeps {inquiry : Inquiry} {cache : AnalysisCache} (number : Nat) {key : CacheKey}
    {reading : Reading} (held : cache.lookup key = some reading) (room : cache.entries.length < cache.capacity) :
    (inquiry.answer cache number).2.lookup key = some reading := by
  rcases answer_cases inquiry cache number with ⟨-, _, -, read⟩ | ⟨-, missed, read⟩ | ⟨-, read⟩ <;> rw [read]
  · exact held
  · have different : key ≠ inquiry.key := by
      rintro rfl
      rw [missed] at held
      cases held
    exact (lookup_put_other { cache with misses := cache.misses + 1 } _ different room).trans held
  · exact held

/-- With room for all that is to come, a held reading answers every inquiry of its key until the
cache is cleared. -/
private theorem held_answers {cache : AnalysisCache} {number : Nat} {steps : List SessionStep} {key : CacheKey}
    {reading : Reading} (held : cache.lookup key = some reading)
    (room : cache.entries.length + (inquiries steps).length ≤ cache.capacity) :
    ∀ other ∈ upcoming steps, other.key = key → (other, reading.file) ∈ answers cache number steps := by
  induction steps generalizing cache number with
  | nil => exact fun _ member => nomatch member
  | cons step rest ih =>
    cases step with
    | clear => exact fun _ member => nomatch member
    | analyze first =>
      have space : cache.entries.length < cache.capacity := by
        simp only [inquiries, List.length_cons] at room
        omega
      have kept : (first.answer cache number).2.lookup key = some reading := answer_keeps number held space
      intro other member same
      rcases first_or_later member with ⟨allowed, rfl⟩ | later
      · have answered := answer_held cache number allowed
        rw [same, kept] at answered
        rw [Option.some.inj answered]
        exact List.mem_cons_self
      · exact List.mem_cons_of_mem _ (ih kept (answer_room number room) other later same)

/-- A session that is free of stale answers while nothing is evicted agrees on dialects. -/
theorem agreeing_of_transparent {cache : AnalysisCache} {number : Nat} {steps : List SessionStep}
    (room : cache.entries.length + (inquiries steps).length ≤ cache.capacity)
    (transparent : Transparent cache number steps) : Agreeing steps := by
  induction steps generalizing cache number with
  | nil => trivial
  | cons step rest ih =>
    cases step with
    | clear =>
      refine ih ?_ transparent
      simp only [inquiries, Cache.clear, List.length_nil] at room ⊢
      omega
    | analyze inquiry =>
      have later : Transparent (inquiry.answer cache number).2 (number + 1) rest :=
        fun told member => transparent told (List.mem_cons_of_mem _ member)
      refine ⟨?_, ih (answer_room number room) later⟩
      intro allowed other next alike
      have own : (inquiry.answer cache number).1.file = inquiry.fresh :=
        transparent (inquiry, _) List.mem_cons_self
      have told : (inquiry.answer cache number).1.file = other.fresh :=
        later (other, _) (held_answers (answer_held cache number allowed) (answer_room number room) other next
          (key_of_alike alike))
      rw [← fresh_dialect, ← fresh_dialect, ← told, ← own]

/-- One text and name in two dialects. Only the second knows comments that end with their line, so
the first does not close its block. -/
def menuInquiry (dialect : Dialect) : Inquiry :=
  ⟨⟨"a.css".toList, ".menu\x7bcolor:red\x7d//\x7b".toList, dialect⟩, { classes := ["menu".toList] }, {}⟩

private theorem collisionFree_of_text {all : List Inquiry} (text : Text)
    (same : ∀ inquiry ∈ all, inquiry.source.text = text) : CollisionFree all := by
  intro a first b second _
  rw [same a first, same b second]

/-- A change of dialect under one key goes unnoticed. -/
theorem dialect_change_answers_stale :
    let steps := [.analyze (menuInquiry .css), .analyze (menuInquiry .scss)]
    CollisionFree (inquiries steps) ∧ ¬ Transparent { capacity := 50 } 0 steps := by
  intro steps
  refine ⟨collisionFree_of_text (menuInquiry .css).source.text (by simp [steps, inquiries, menuInquiry]), ?_⟩
  intro transparent
  have agreeing := agreeing_of_transparent (by decide) transparent
  have same := agreeing.1 rfl (menuInquiry .scss) List.mem_cons_self ⟨rfl, rfl, rfl, rfl⟩
  cases same

/-- What is told is the analysis of the source in some dialect, and over all capacities it is in its
own dialect exactly if sources that are alike agree on it. -/
theorem session_transparent_iff (steps : List SessionStep) (distinct : CollisionFree (inquiries steps)) :
    (∀ capacity, ∀ told ∈ answers { capacity } 0 steps, told.2 =
      ({ told.1.source with dialect := told.2.dialect }).analyze told.1.identity told.1.config.toFileSettings) ∧
    ((∀ capacity, 1 ≤ capacity → Transparent { capacity } 0 steps) ↔ Agreeing steps) := by
  have backed : ∀ capacity, Backed [] ({ capacity } : AnalysisCache) := fun _ _ _ member => nomatch member
  refine ⟨?_, ?_, ?_⟩
  · intro capacity told member
    obtain ⟨origin, alike, answered⟩ :=
      answers_alike distinct (backed capacity) (List.nil_subset _) (List.Subset.refl _) told member
    rw [answered, fresh_dialect]
    exact fresh_of_alike alike
  · intro transparent
    exact agreeing_of_transparent (by simp) (transparent ((inquiries steps).length + 1) (by omega))
  · intro agreeing capacity _
    exact transparent_of_agreeing distinct (backed capacity) (List.nil_subset _) (List.Subset.refl _)
      (fun _ member => nomatch member) agreeing

/-- After clearing, the same text and name may come in another dialect. -/
theorem cleared_session_transparent :
    let steps := [.analyze (menuInquiry .css), .clear, .analyze (menuInquiry .scss), .analyze (menuInquiry .scss)]
    CollisionFree (inquiries steps) ∧ ∀ capacity, 1 ≤ capacity → Transparent { capacity } 0 steps := by
  intro steps
  have distinct : CollisionFree (inquiries steps) :=
    collisionFree_of_text (menuInquiry .css).source.text (by simp [steps, inquiries, menuInquiry])
  have agreeing : Agreeing steps := by simp [steps, Agreeing, upcoming, menuInquiry]
  exact ⟨distinct, (session_transparent_iff steps distinct).2.mpr agreeing⟩

end CascadeLens.Proofs.SessionTransparency
