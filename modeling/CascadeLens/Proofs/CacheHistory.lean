import CascadeLens.Proofs.CacheEntries
import Mathlib.Data.List.DropRight

/-! A cache explained by its history. Whatever an empty cache is asked, it holds the keys that came in last, each
with the value that was put last, and it counts the look-ups that found a value and those that did not. -/

namespace CascadeLens.Proofs.CacheHistory
open Cache CacheEntries

inductive Request (κ α : Type) where
  | get (key : κ)
  | put (key : κ) (value : Option α)
  | holds (key : κ)
  | size
  | clear

inductive Answer (α : Type) where
  | found (value : Option α)
  | held (holds : Bool)
  | count (entries : Nat)
  | done

section Histories

variable {κ α : Type} [DecidableEq κ]

/-- What a cache answers to a request, and what becomes of it. -/
def perform (cache : Cache κ α) : Request κ α → Answer α × Cache κ α
  | .get key => (.found (cache.get key).1, (cache.get key).2)
  | .put key value => (.done, cache.put key value)
  | .holds key => (.held (cache.holds key), cache)
  | .size => (.count cache.size, cache)
  | .clear => (.done, cache.clear)

def after (cache : Cache κ α) (requests : List (Request κ α)) : Cache κ α :=
  requests.foldl (fun cache request => (perform cache request).2) cache

/-- A request together with the cache that it was put to. -/
structure Event (κ α : Type) where
  request : Request κ α
  cache : Cache κ α

def events (cache : Cache κ α) : List (Request κ α) → List (Event κ α)
  | [] => []
  | request :: rest => ⟨request, cache⟩ :: events (perform cache request).2 rest

namespace Event

def clears (event : Event κ α) : Bool :=
  match event.request with
  | .clear => true
  | _ => false

/-- The key that comes in: one that is put and not held at that moment. -/
def entering (event : Event κ α) : Option κ :=
  match event.request with
  | .put key _ => if event.cache.holds key then none else some key
  | _ => none

def looksUp (event : Event κ α) : Bool :=
  match event.request with
  | .get _ => true
  | _ => false

/-- A look-up that is answered with a value. -/
def hits (event : Event κ α) : Bool :=
  match (perform event.cache event.request).1 with
  | .found (some _) => true
  | _ => false

end Event

def sinceClear (history : List (Event κ α)) : List (Event κ α) := history.rtakeWhile fun event => !event.clears

/-- The keys that came in since the last clearing, in that order. One that was forgotten may come in again. -/
def entered (history : List (Event κ α)) : List κ := (sinceClear history).filterMap Event.entering

def lookups (history : List (Event κ α)) : Nat := (sinceClear history).countP Event.looksUp

def hitCount (history : List (Event κ α)) : Nat := (sinceClear history).countP Event.hits

/-- The value of the last request to put something under a key, if there is one. -/
def lastPut (key : κ) (requests : List (Request κ α)) : Option (Option α) :=
  requests.reverse.findSome? fun
    | .put other value => if other = key then some value else none
    | _ => none

/-- What is known of a cache from the requests that an empty one of the capacity was asked. -/
structure Explained (capacity : Nat) (requests : List (Request κ α)) (cache : Cache κ α) : Prop where
  keys : cache.entries.map Prod.fst = (entered (events { capacity } requests)).rtake capacity
  size : cache.size = min (entered (events { capacity } requests)).length capacity
  bounded : cache.size ≤ capacity
  holds : ∀ key, cache.holds key = true ↔ key ∈ (entered (events { capacity } requests)).rtake capacity
  held : ∀ key, cache.holds key = true → ∃ value, lastPut key requests = some value ∧ (cache.get key).1 = value
  missing : ∀ key, cache.holds key = false → (cache.get key).1 = none
  counted : cache.hits + cache.misses = lookups (events { capacity } requests)
  hits : cache.hits = hitCount (events { capacity } requests)

end Histories

theorem create_empty {κ α : Type} {capacity : Nat} (room : 1 ≤ capacity) :
    (create capacity : Except Refusal (Cache κ α)) = .ok { capacity } :=
  if_neg (by omega)

/-- The last of a list, cut again for one more, are the last with that one behind them. -/
theorem rtake_snoc {κ : Type} {capacity : Nat} (room : 1 ≤ capacity) (keys : List κ) (key : κ) :
    (keys.rtake capacity).drop ((keys.rtake capacity).length + 1 - capacity) ++ [key] = (keys ++ [key]).rtake capacity := by
  have length : (keys.rtake capacity).length = min keys.length capacity := by
    simp only [List.rtake, List.length_drop]
    omega
  rw [length, List.rtake, List.rtake, List.length_append, List.length_singleton, List.drop_drop,
    List.drop_append_of_le_length (by omega)]
  congr 2
  omega

section Requests

variable {κ α : Type} [DecidableEq κ] {cache : Cache κ α} {requests : List (Request κ α)}

theorem after_snoc (cache : Cache κ α) (requests : List (Request κ α)) (request : Request κ α) :
    after cache (requests ++ [request]) = (perform (after cache requests) request).2 := List.foldl_append

theorem events_snoc (cache : Cache κ α) (requests : List (Request κ α)) (request : Request κ α) :
    events cache (requests ++ [request]) = events cache requests ++ [⟨request, after cache requests⟩] := by
  induction requests generalizing cache with
  | nil => rfl
  | cons first rest ih =>
    rw [List.cons_append, events, ih]
    rfl

theorem holds_iff (cache : Cache κ α) (key : κ) : cache.holds key = true ↔ key ∈ cache.entries.map Prod.fst := by
  simp [Cache.holds]

theorem lookup_missing {key : κ} (missing : cache.holds key = false) : cache.lookup key = none := by
  have absent : cache.entries.lookup key = none := by
    rw [List.lookup_eq_none_iff]
    intro entry member
    apply bne_iff_ne.mpr
    rintro rfl
    rw [Bool.eq_false_iff, Ne, holds_iff] at missing
    exact missing (List.mem_map_of_mem member)
  rw [Cache.lookup, absent, Option.join_none]

theorem lookup_held {key : κ} (held : cache.holds key = true) :
    ∃ value, (key, value) ∈ cache.entries ∧ cache.lookup key = value := by
  obtain ⟨entry, member, same⟩ := List.mem_map.mp ((holds_iff cache key).mp held)
  have present : (cache.entries.lookup key).isSome = true := by
    rw [List.lookup_isSome_iff]
    exact ⟨entry, member, by simpa using same.symm⟩
  obtain ⟨value, found⟩ := Option.isSome_iff_exists.mp present
  obtain ⟨before, behind, shape, -⟩ := List.lookup_eq_some_iff.mp found
  refine ⟨value, ?_, ?_⟩
  · rw [shape]
    exact List.mem_append_right before List.mem_cons_self
  · rw [Cache.lookup, found, Option.join_some]

theorem get_value (cache : Cache κ α) (key : κ) : (cache.get key).1 = cache.lookup key := by
  unfold Cache.get
  split
  next value found => exact found.symm
  next none => exact none.symm

theorem get_entries (cache : Cache κ α) (key : κ) : (cache.get key).2.entries = cache.entries := by
  unfold Cache.get
  split <;> rfl

theorem get_capacity (cache : Cache κ α) (key : κ) : (cache.get key).2.capacity = cache.capacity := by
  unfold Cache.get
  split <;> rfl

/-- Under its key a put leaves nothing but the value. -/
theorem entry_of_put {key : κ} {value : Option α} {entry : κ × Option α} (member : entry ∈ (cache.put key value).entries) :
    entry = (key, value) ∨ entry ∈ cache.entries ∧ entry.1 ≠ key := by
  unfold Cache.put at member
  split at member
  next =>
    obtain ⟨old, inside, rfl⟩ := List.mem_map.mp member
    by_cases same : old.1 = key
    · left
      simp [same]
    · right
      simp [same, inside]
  next fresh =>
    rcases List.mem_append.mp member with kept | added
    · right
      have inside := List.mem_of_mem_drop kept
      refine ⟨inside, ?_⟩
      rintro rfl
      exact fresh ((holds_iff cache entry.1).mpr (List.mem_map_of_mem inside))
    · left
      exact List.mem_singleton.mp added

theorem keys_put_held {key : κ} (held : cache.holds key = true) (value : Option α) :
    (cache.put key value).entries.map Prod.fst = cache.entries.map Prod.fst := by
  rw [Cache.put, if_pos held, List.map_map]
  apply List.map_congr_left
  intro entry _
  dsimp only [Function.comp_apply]
  split <;> rfl

theorem keys_put_fresh {key : κ} (fresh : cache.holds key = false) (value : Option α) :
    (cache.put key value).entries.map Prod.fst =
      (cache.entries.map Prod.fst).drop ((cache.entries.map Prod.fst).length + 1 - cache.capacity) ++ [key] := by
  rw [Cache.put, if_neg (by simp [fresh]), List.map_append, List.map_drop, List.length_map]
  rfl

theorem lastPut_snoc (key : κ) (requests : List (Request κ α)) (request : Request κ α) :
    lastPut key (requests ++ [request]) =
      match request with
      | .put other value => if other = key then some value else lastPut key requests
      | _ => lastPut key requests := by
  rw [lastPut, List.reverse_append, List.reverse_singleton, List.singleton_append, List.findSome?_cons]
  cases request with
  | put other value => by_cases same : other = key <;> simp [same, lastPut]
  | get => rfl
  | holds => rfl
  | size => rfl
  | clear => rfl

end Requests

section Clearings

variable {κ α : Type} {history : List (Event κ α)} {event : Event κ α}

theorem sinceClear_onward (goes : event.clears = false) : sinceClear (history ++ [event]) = sinceClear history ++ [event] :=
  List.rtakeWhile_concat_pos _ _ _ (by simp [goes])

theorem sinceClear_clear (clears : event.clears = true) : sinceClear (history ++ [event]) = [] :=
  List.rtakeWhile_concat_neg _ _ _ (by simp [clears])

theorem lookups_onward (goes : event.clears = false) :
    lookups (history ++ [event]) = lookups history + if event.looksUp then 1 else 0 := by
  rw [lookups, sinceClear_onward goes, List.countP_append, List.countP_singleton]
  rfl

end Clearings

section Steps

variable {κ α : Type} [DecidableEq κ] {capacity : Nat} {requests : List (Request κ α)} {cache : Cache κ α}
  {history : List (Event κ α)} {event : Event κ α}

theorem entered_onward (goes : event.clears = false) :
    entered (history ++ [event]) = entered history ++ event.entering.toList := by
  rw [entered, sinceClear_onward goes, List.filterMap_append]
  cases entering : event.entering <;> simp [entered, entering]

theorem hitCount_onward (goes : event.clears = false) :
    hitCount (history ++ [event]) = hitCount history + if event.hits then 1 else 0 := by
  rw [hitCount, sinceClear_onward goes, List.countP_append, List.countP_singleton]
  rfl

/-- What every request keeps: the keys that came in last, the values that were put last, and the counts. -/
structure Kept (capacity : Nat) (requests : List (Request κ α)) (history : List (Event κ α)) (cache : Cache κ α) : Prop where
  limit : cache.capacity = capacity
  keys : cache.entries.map Prod.fst = (entered history).rtake capacity
  values : ∀ entry ∈ cache.entries, lastPut entry.1 requests = some entry.2
  hits : cache.hits = hitCount history
  counted : cache.hits + cache.misses = lookups history

theorem Kept.get (kept : Kept capacity requests history cache) (key : κ) :
    Kept capacity (requests ++ [.get key]) (history ++ [⟨.get key, cache⟩]) (cache.get key).2 := by
  have hits := kept.hits
  have counted := kept.counted
  refine ⟨(get_capacity cache key).trans kept.limit, ?_, ?_, ?_, ?_⟩
  · rw [get_entries, entered_onward rfl, kept.keys]
    simp [Event.entering]
  · rw [get_entries]
    intro entry member
    rw [lastPut_snoc]
    exact kept.values entry member
  · rw [hitCount_onward rfl, ← hits]
    cases found : cache.lookup key <;> simp [Event.hits, perform, Cache.get, found]
  · rw [lookups_onward rfl, ← counted]
    cases found : cache.lookup key <;> simp [Event.looksUp, Cache.get, found] <;> omega

theorem Kept.put (room : 1 ≤ capacity) (kept : Kept capacity requests history cache) (key : κ) (value : Option α) :
    Kept capacity (requests ++ [.put key value]) (history ++ [⟨.put key value, cache⟩]) (cache.put key value) := by
  refine ⟨(put_capacity cache key value).trans kept.limit, ?_, ?_, ?_, ?_⟩
  · rw [entered_onward rfl]
    cases held : cache.holds key with
    | true =>
      rw [keys_put_held held, kept.keys]
      simp [Event.entering, held]
    | false =>
      rw [keys_put_fresh held, kept.limit, kept.keys, rtake_snoc room]
      simp [Event.entering, held]
  · intro entry member
    rw [lastPut_snoc]
    rcases entry_of_put member with rfl | ⟨old, other⟩
    · simp
    · simp only [other.symm, if_false]
      exact kept.values entry old
  · rw [put_hits, hitCount_onward rfl]
    exact kept.hits
  · rw [put_hits, put_misses, lookups_onward rfl]
    exact kept.counted

theorem Kept.clear (kept : Kept capacity requests history cache) :
    Kept capacity (requests ++ [.clear]) (history ++ [⟨.clear, cache⟩]) cache.clear := by
  refine ⟨kept.limit, ?_, nofun, ?_, ?_⟩
  · rw [entered, sinceClear_clear rfl, List.filterMap_nil, List.rtake_nil]
    rfl
  · rw [hitCount, sinceClear_clear rfl]
    rfl
  · rw [lookups, sinceClear_clear rfl]
    rfl

/-- Asking what is held changes nothing. -/
theorem Kept.ask (kept : Kept capacity requests history cache) {request : Request κ α}
    (asks : request = .size ∨ ∃ key, request = .holds key) :
    Kept capacity (requests ++ [request]) (history ++ [⟨request, cache⟩]) cache := by
  have goes : (Event.mk request cache).clears = false := by
    rcases asks with rfl | ⟨key, rfl⟩ <;> rfl
  refine ⟨kept.limit, ?_, ?_, ?_, ?_⟩
  · rw [entered_onward goes, kept.keys]
    rcases asks with rfl | ⟨key, rfl⟩ <;> simp [Event.entering]
  · intro entry member
    rw [lastPut_snoc]
    rcases asks with rfl | ⟨key, rfl⟩ <;> exact kept.values entry member
  · rw [hitCount_onward goes]
    rcases asks with rfl | ⟨key, rfl⟩ <;> exact kept.hits
  · rw [lookups_onward goes]
    rcases asks with rfl | ⟨key, rfl⟩ <;> exact kept.counted

theorem Kept.perform (room : 1 ≤ capacity) (kept : Kept capacity requests history cache) (request : Request κ α) :
    Kept capacity (requests ++ [request]) (history ++ [⟨request, cache⟩]) (perform cache request).2 := by
  cases request with
  | get key => exact kept.get key
  | put key value => exact kept.put room key value
  | holds key => exact kept.ask (Or.inr ⟨key, rfl⟩)
  | size => exact kept.ask (Or.inl rfl)
  | clear => exact kept.clear

theorem kept_empty (capacity : Nat) : Kept capacity [] [] ({ capacity } : Cache κ α) :=
  ⟨rfl, (List.rtake_nil capacity).symm, nofun, rfl, rfl⟩

theorem kept_after (room : 1 ≤ capacity) (requests : List (Request κ α)) :
    Kept capacity requests (events { capacity } requests) (after { capacity } requests) := by
  induction requests using List.reverseRecOn with
  | nil => exact kept_empty capacity
  | append_singleton requests request ih =>
    rw [events_snoc, after_snoc]
    exact ih.perform room request

end Steps

section Runs

variable {κ α : Type} [DecidableEq κ]

theorem cache_explained (capacity : Nat) (room : 1 ≤ capacity) (requests : List (Request κ α)) :
    ∃ empty, create capacity = .ok empty ∧ Explained capacity requests (after empty requests) := by
  have kept := kept_after room requests
  have length : (after { capacity } requests).size = min (entered (events { capacity } requests)).length capacity := by
    rw [Cache.size, ← List.length_map (f := Prod.fst), kept.keys]
    simp only [List.rtake, List.length_drop]
    omega
  refine ⟨{ capacity }, create_empty room, ?_⟩
  refine ⟨kept.keys, length, ?_, ?_, ?_, ?_, kept.counted, kept.hits⟩
  · rw [length]
    exact Nat.min_le_right _ capacity
  · intro key
    rw [holds_iff, kept.keys]
  · intro key held
    obtain ⟨value, member, found⟩ := lookup_held held
    exact ⟨value, kept.values (key, value) member, (get_value _ key).trans found⟩
  · intro key missing
    exact (get_value _ key).trans (lookup_missing missing)

/-- A put that replaces, one that forgets the oldest key, the forgotten key coming in again, and a value that is
missing although its key is held. -/
def menuRequests : List (Request Nat Char) :=
  [.put 1 'a', .put 2 'b', .put 1 'c', .get 1, .put 3 none, .holds 1, .put 1 'd', .get 3, .get 2, .get 1, .size]

theorem menu_cache_explained : 1 ≤ 2 ∧ entered (events { capacity := 2 } menuRequests) = [1, 2, 3, 1] ∧
    ∃ empty, create 2 = .ok empty ∧ Explained 2 menuRequests (after empty menuRequests) :=
  ⟨by decide, by decide, cache_explained 2 (by decide) menuRequests⟩

end Runs

end CascadeLens.Proofs.CacheHistory
