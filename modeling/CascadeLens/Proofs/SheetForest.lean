import CascadeLens.Proofs.SheetSteps

/-! Blocks found in a source: where each of them stands, and how the blocks of a forest lie in order,
apart from each other or one inside the other. -/

namespace CascadeLens.Proofs.SheetForest
open Text SheetSteps

section Places

variable {source : Text} {place : Place}

/-- A place in the source. -/
def At (source : Text) (place : Place) : Prop :=
  place.offset ≤ source.length ∧ place = behind {} (source.take place.offset)

/-- A place where something other than a blank stands. -/
def Begins (source : Text) (place : Place) : Prop :=
  At source place ∧ ∃ c, source[place.offset]? = some c ∧ isBlank c = false

theorem At.line (here : At source place) : place.line = 1 + (source.take place.offset).count '\n' := by
  have counted := behind_line {} (source.take place.offset)
  rwa [← here.2] at counted

theorem At.after (here : At source place) {c : Char} (next : source[place.offset]? = some c) :
    At source (place.after c) := by
  have offset : (place.after c).offset = place.offset + 1 := by
    unfold Place.after
    split <;> rfl
  obtain ⟨inside, same⟩ := List.getElem?_eq_some_iff.mp next
  refine ⟨by omega, ?_⟩
  rw [offset, List.take_add_one, next, behind_append, ← here.2]
  rfl

end Places

/-- A block stands in the source from a character that is no blank to a closing brace, and its lines are
those of its ends. -/
structure Sits (source : Text) (block : FoundBlock) : Prop where
  filled : block.start < block.stop
  first : ∃ c, source[block.start]? = some c ∧ isBlank c = false
  last : source[block.stop - 1]? = some '\x7d'
  startLine : block.startLine = 1 + (source.take block.start).count '\n'
  endLine : block.endLine = 1 + (source.take (block.stop - 1)).count '\n'

/-- An earlier block begins before a later one, and does not end inside of it. -/
structure Precedes (a b : FoundBlock) : Prop where
  order : a.order < b.order
  start : a.start < b.start
  apart : a.stop ≤ b.start ∨ b.stop ≤ a.stop

structure Surrounds (around inner : FoundBlock) : Prop where
  start : around.start < inner.start
  stop : inner.stop < around.stop
  atRules : around.atRules <+: inner.atRules

mutual

/-- The blocks of a tree in document order. -/
def blocksOf : BlockTree → List FoundBlock
  | .node block children => block :: blocksIn children

def blocksIn : List BlockTree → List FoundBlock
  | [] => []
  | tree :: rest => blocksOf tree ++ blocksIn rest

end

mutual

/-- Every block surrounds the blocks nested in it. -/
def NestedTree : BlockTree → Prop
  | .node block children => (∀ inner ∈ blocksIn children, Surrounds block inner) ∧ NestedIn children

def NestedIn : List BlockTree → Prop
  | [] => True
  | tree :: rest => NestedTree tree ∧ NestedIn rest

end

section Forests

variable {source : Text}

theorem blocksIn_append (first second : List BlockTree) :
    blocksIn (first ++ second) = blocksIn first ++ blocksIn second := by
  induction first with
  | nil => rfl
  | cons tree rest ih => rw [List.cons_append, blocksIn, blocksIn, ih, List.append_assoc]

theorem nestedIn_append {first second : List BlockTree} :
    NestedIn (first ++ second) ↔ NestedIn first ∧ NestedIn second := by
  induction first with
  | nil => exact ⟨fun later => ⟨trivial, later⟩, And.right⟩
  | cons tree rest ih =>
    rw [List.cons_append, NestedIn, NestedIn, ih]
    exact and_assoc.symm

/-- A part of the source with the places in the order of rules that are given out in it. -/
structure Room where
  start : Nat
  stop : Nat
  first : Nat
  next : Nat

/-- A block that stands in a room, under at-rules. -/
structure Lies (source : Text) (room : Room) (atRules : List AtRule) (block : FoundBlock) : Prop where
  sits : Sits source block
  start : room.start ≤ block.start
  stop : block.stop ≤ room.stop
  first : room.first ≤ block.order
  next : block.order < room.next
  atRules : atRules <+: block.atRules

/-- Blocks that stand in a room one after the other or one inside the other. -/
structure Fits (source : Text) (room : Room) (atRules : List AtRule) (blocks : List FoundBlock) : Prop where
  lies : ∀ block ∈ blocks, Lies source room atRules block
  ordered : blocks.Pairwise Precedes

theorem fits_nil (room : Room) (atRules : List AtRule) : Fits source room atRules [] := ⟨by simp, by simp⟩

/-- A room is wider if it lies around, and gives out as many places. -/
structure Wider (wide room : Room) : Prop where
  start : wide.start ≤ room.start
  stop : room.stop ≤ wide.stop
  first : wide.first ≤ room.first
  next : room.next ≤ wide.next

variable {room wide later : Room} {atRules fewer : List AtRule} {blocks more : List FoundBlock}

theorem Lies.widen {block : FoundBlock} (lies : Lies source room atRules block) (wider : Wider wide room)
    (under : fewer <+: atRules) : Lies source wide fewer block where
  sits := lies.sits
  start := Nat.le_trans wider.start lies.start
  stop := Nat.le_trans lies.stop wider.stop
  first := Nat.le_trans wider.first lies.first
  next := Nat.lt_of_lt_of_le lies.next wider.next
  atRules := under.trans lies.atRules

theorem Fits.widen (fits : Fits source room atRules blocks) (wider : Wider wide room) (under : fewer <+: atRules) :
    Fits source wide fewer blocks :=
  ⟨fun block member => (fits.lies block member).widen wider under, fits.ordered⟩

/-- Blocks behind each other fit into a room around both of theirs. -/
theorem Fits.append (fits : Fits source room atRules blocks) (behind : Fits source later atRules more)
    (before : Wider wide room) (after : Wider wide later) (start : room.stop ≤ later.start)
    (first : room.next ≤ later.first) :
    Fits source wide atRules (blocks ++ more) := by
  have front := fits.widen before (List.prefix_refl atRules)
  have back := behind.widen after (List.prefix_refl atRules)
  refine ⟨List.forall_mem_append.mpr ⟨front.lies, back.lies⟩, List.pairwise_append.mpr ⟨fits.ordered, behind.ordered, ?_⟩⟩
  intro a early b late
  have lies := fits.lies a early
  have lies' := behind.lies b late
  have filled := lies.sits.filled
  have stop := lies.stop
  have begins := lies'.start
  have order := lies.next
  have number := lies'.first
  exact ⟨by omega, by omega, Or.inl (by omega)⟩

/-- The room between the ends of a block. -/
def inside (own : FoundBlock) (next : Nat) : Room := ⟨own.start + 1, own.stop - 1, own.order + 1, next⟩

/-- The room that a block takes up. -/
def taken (own : FoundBlock) (next : Nat) : Room := ⟨own.start, own.stop, own.order, next⟩

theorem Fits.surrounded {own : FoundBlock} {next : Nat} (sits : Sits source own)
    (fits : Fits source (inside own next) own.atRules blocks) : ∀ inner ∈ blocks, Surrounds own inner := by
  intro inner member
  have lies := fits.lies inner member
  have filled := sits.filled
  have start : own.start + 1 ≤ inner.start := lies.start
  have stop : inner.stop ≤ own.stop - 1 := lies.stop
  exact ⟨by omega, by omega, lies.atRules⟩

/-- A block in front of those inside of it. -/
theorem Fits.around {own : FoundBlock} {next : Nat} (sits : Sits source own)
    (fits : Fits source (inside own next) own.atRules blocks) (room : own.order < next) :
    Fits source (taken own next) own.atRules (own :: blocks) := by
  have wider : Wider (taken own next) (inside own next) :=
    ⟨Nat.le_succ own.start, Nat.sub_le own.stop 1, Nat.le_succ own.order, Nat.le_refl next⟩
  have self : Lies source (taken own next) own.atRules own :=
    ⟨sits, Nat.le_refl own.start, Nat.le_refl own.stop, Nat.le_refl own.order, room, List.prefix_refl _⟩
  have others := fits.widen wider (List.prefix_refl own.atRules)
  refine ⟨List.forall_mem_cons.mpr ⟨self, others.lies⟩, List.pairwise_cons.mpr ⟨?_, fits.ordered⟩⟩
  intro inner member
  have surrounds := fits.surrounded sits inner member
  have order : own.order + 1 ≤ inner.order := (fits.lies inner member).first
  exact ⟨order, surrounds.start, Or.inr (Nat.le_of_lt surrounds.stop)⟩

end Forests

end CascadeLens.Proofs.SheetForest
