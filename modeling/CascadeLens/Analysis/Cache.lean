/-! A bounded memory that forgets what it learned first. -/

namespace CascadeLens

/-- Entries in the order in which their keys came in, with counts of the look-ups that found a value
and of those that did not. A held value may be missing. -/
structure Cache (κ α : Type) where
  capacity : Nat
  entries : List (κ × Option α) := []
  hits : Nat := 0
  misses : Nat := 0

namespace Cache

variable {κ α : Type} [BEq κ]

/-- Why there is no cache of a capacity. -/
inductive Refusal where
  | noRoom
deriving Repr, DecidableEq

def Refusal.message : Refusal → String
  | .noRoom => "Cache capacity must be at least 1"

def create (capacity : Nat) : Except Refusal (Cache κ α) :=
  if capacity < 1 then .error .noRoom else .ok { capacity }

def size (cache : Cache κ α) : Nat := cache.entries.length

def holds (cache : Cache κ α) (key : κ) : Bool := cache.entries.any (·.1 == key)

/-- The value held under a key. -/
def lookup (cache : Cache κ α) (key : κ) : Option α := (cache.entries.lookup key).join

def get (cache : Cache κ α) (key : κ) : Option α × Cache κ α :=
  match cache.lookup key with
  | some value => (some value, { cache with hits := cache.hits + 1 })
  | none => (none, { cache with misses := cache.misses + 1 })

/-- Puts a value under a key. A key that is held keeps its place; for another one the oldest entries
make room. -/
def put (cache : Cache κ α) (key : κ) (value : Option α) : Cache κ α :=
  if cache.holds key then
    { cache with entries := cache.entries.map fun entry =>
        if entry.1 == key then (entry.1, value) else entry }
  else
    { cache with
      entries := cache.entries.drop (cache.entries.length + 1 - cache.capacity) ++ [(key, value)] }

def clear (cache : Cache κ α) : Cache κ α := { capacity := cache.capacity }

end Cache

end CascadeLens
