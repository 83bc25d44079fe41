import CascadeLens.Analysis.Cache

/-! What a cache holds after a value is put into it. Without eviction, and nothing is evicted while
there is room, the values of all other keys stay. -/

namespace CascadeLens.Proofs.CacheEntries
open Cache

/-- All entries have a property. -/
def AllHeld {κ α : Type} (P : κ → Option α → Prop) (cache : Cache κ α) : Prop :=
  ∀ key value, (key, value) ∈ cache.entries → P key value

variable {κ α : Type} [BEq κ]

theorem put_capacity (cache : Cache κ α) (key : κ) (value : Option α) :
    (cache.put key value).capacity = cache.capacity := by
  unfold put
  split <;> rfl

theorem put_hits (cache : Cache κ α) (key : κ) (value : Option α) : (cache.put key value).hits = cache.hits := by
  unfold put
  split <;> rfl

theorem put_misses (cache : Cache κ α) (key : κ) (value : Option α) : (cache.put key value).misses = cache.misses := by
  unfold put
  split <;> rfl

theorem size_put_le (cache : Cache κ α) (key : κ) (value : Option α) :
    (cache.put key value).entries.length ≤ cache.entries.length + 1 := by
  unfold put
  split
  · simp
  · simp only [List.length_append, List.length_drop, List.length_singleton]
    omega

/-- A cache with room for one entry never outgrows its capacity. -/
theorem put_bounded {cache : Cache κ α} (room : 1 ≤ cache.capacity) (bounded : cache.entries.length ≤ cache.capacity)
    (key : κ) (value : Option α) : (cache.put key value).entries.length ≤ cache.capacity := by
  unfold put
  split
  · rwa [List.length_map]
  · simp only [List.length_append, List.length_drop, List.length_singleton]
    omega

variable [LawfulBEq κ]

theorem lookup_member {cache : Cache κ α} {key : κ} {value : α} (found : cache.lookup key = some value) :
    (key, some value) ∈ cache.entries := by
  rw [Cache.lookup, Option.join_eq_some_iff] at found
  obtain ⟨before, after, shape, -⟩ := List.lookup_eq_some_iff.mp found
  rw [shape]
  exact List.mem_append_right _ List.mem_cons_self

theorem put_member {cache : Cache κ α} {key : κ} {value : Option α} {entry : κ × Option α}
    (member : entry ∈ (cache.put key value).entries) : entry ∈ cache.entries ∨ entry = (key, value) := by
  unfold put at member
  split at member
  · obtain ⟨old, inside, rfl⟩ := List.mem_map.mp member
    split
    next same => exact Or.inr (by rw [beq_iff_eq.mp same])
    next => exact Or.inl inside
  · rcases List.mem_append.mp member with kept | added
    · exact Or.inl (List.mem_of_mem_drop kept)
    · exact Or.inr (List.mem_singleton.mp added)

theorem AllHeld.put {P : κ → Option α → Prop} {cache : Cache κ α} (held : AllHeld P cache) {key : κ} {value : Option α}
    (own : P key value) : AllHeld P (cache.put key value) := by
  intro other found member
  rcases put_member member with before | new
  · exact held other found before
  · obtain ⟨rfl, rfl⟩ := Prod.mk.inj new
    exact own

theorem AllHeld.lookup {P : κ → Option α → Prop} {cache : Cache κ α} (held : AllHeld P cache) {key : κ} {value : α}
    (found : cache.lookup key = some value) : P key (some value) := held key _ (lookup_member found)

private theorem lookup_replaced (entries : List (κ × Option α)) (key other : κ) (value : Option α) :
    (entries.map fun entry => if entry.1 == key then (entry.1, value) else entry).lookup other =
      if other == key then (entries.lookup other).map fun _ => value else entries.lookup other := by
  induction entries with
  | nil => simp
  | cons entry rest ih =>
    obtain ⟨held, old⟩ := entry
    by_cases here : other = held
    · subst here
      by_cases replaced : other = key <;> simp [replaced]
    · have skips : (other == held) = false := by simpa using here
      rw [List.map_cons]
      cases held == key <;>
        simp only [Bool.false_eq_true, if_true, if_false, List.lookup_cons, skips, ih]

theorem lookup_put_self (cache : Cache κ α) (key : κ) (value : Option α) :
    (cache.put key value).lookup key = value := by
  unfold put Cache.lookup
  split
  next held =>
    obtain ⟨entry, member, same⟩ := List.any_eq_true.mp held
    have present : (cache.entries.lookup key).isSome := by
      rw [List.lookup_isSome_iff]
      exact ⟨entry, member, by simpa using (beq_iff_eq.mp same).symm⟩
    obtain ⟨old, found⟩ := Option.isSome_iff_exists.mp present
    simp [lookup_replaced, found]
  next fresh =>
    have absent : (cache.entries.drop (cache.entries.length + 1 - cache.capacity)).lookup key = none := by
      rw [List.lookup_eq_none_iff]
      intro entry member
      apply bne_iff_ne.mpr
      rintro rfl
      exact fresh (List.any_eq_true.mpr ⟨entry, List.mem_of_mem_drop member, beq_self_eq_true _⟩)
    simp [List.lookup_append, absent]

theorem lookup_put_other (cache : Cache κ α) {key other : κ} (value : Option α) (different : other ≠ key)
    (room : cache.entries.length < cache.capacity) : (cache.put key value).lookup other = cache.lookup other := by
  have skips : (other == key) = false := by simpa using different
  unfold put Cache.lookup
  split
  next => simp [lookup_replaced, different]
  next =>
    have nothing : cache.entries.length + 1 - cache.capacity = 0 := by omega
    simp [List.lookup_append, nothing, skips, List.lookup_cons]

end CascadeLens.Proofs.CacheEntries
