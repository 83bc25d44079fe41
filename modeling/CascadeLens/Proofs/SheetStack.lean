import CascadeLens.Proofs.SheetForest

/-! The stack of open blocks. Each level has found blocks between its own start and the start of what
is open inside of it, so closing a block puts it behind everything its surroundings have found. -/

namespace CascadeLens.Proofs.SheetStack
open Text SheetSteps SheetForest

/-- The place in the order of rules that an open block has taken for itself. -/
def ownOrder (level : Level) : Option Nat :=
  match level.kind with
  | .style _ order | .nestedGroup order => some order
  | _ => none

/-- The second level has found the given trees beside those of the first, and is the same block. -/
structure Grows (level other : Level) (more : List BlockTree) : Prop where
  start : other.start = level.start
  atRules : other.atRules = level.atRules
  order : ownOrder other = ownOrder level
  blocks : other.blocks = more ++ level.blocks

/-- What a level has found fits into a room. -/
structure Fills (source : Text) (room : Room) (atRules : List AtRule) (trees : List BlockTree) : Prop where
  fits : Fits source room atRules (blocksIn trees)
  nested : NestedIn trees

/-- How an open block stands in the one around it, before which some places in the order were taken. -/
structure Opens (source : Text) (around level : Level) (before : Nat) (room : Room) : Prop where
  begins : Begins source level.start
  atRules : around.atRules <+: level.atRules
  own : ∀ order, ownOrder level = some order → order = before ∧ room.first = order + 1
  start : room.start = level.start.offset + 1
  stop : room.start ≤ room.stop
  first : before ≤ room.first
  next : room.first ≤ room.next

/-- Levels from the inside out, of which the innermost has found blocks up to some offset. The sheet
begins before its first character. -/
def Stacked (source : Text) (stop next : Nat) : List Level → Prop
  | [] => True
  | [level] => Fills source ⟨0, stop, 0, next⟩ level.atRules level.blocks.reverse
  | level :: around :: outer => ∃ before room, Opens source around level before room ∧ room.stop = stop ∧ room.next = next ∧
      Fills source room level.atRules level.blocks.reverse ∧ Stacked source level.start.offset before (around :: outer)

section Stacks

variable {source : Text} {stop stop' next next' : Nat} {level other around : Level} {outer : List Level}

theorem Fills.append {room wide later : Room} {atRules : List AtRule} {trees more : List BlockTree}
    (fills : Fills source room atRules trees) (behind : Fills source later atRules more) (before : Wider wide room)
    (after : Wider wide later) (start : room.stop ≤ later.start) (first : room.next ≤ later.first) :
    Fills source wide atRules (trees ++ more) := by
  refine ⟨?_, nestedIn_append.mpr ⟨fills.nested, behind.nested⟩⟩
  rw [blocksIn_append]
  exact fills.fits.append behind.fits before after start first

theorem fills_nil (source : Text) (room : Room) (atRules : List AtRule) : Fills source room atRules [] :=
  ⟨fits_nil room atRules, trivial⟩

theorem Fills.widen {room wide : Room} {atRules fewer : List AtRule} {trees : List BlockTree}
    (fills : Fills source room atRules trees)
    (wider : Wider wide room) (under : fewer <+: atRules) : Fills source wide fewer trees :=
  ⟨fills.fits.widen wider under, fills.nested⟩

/-- The innermost level may find more behind what it has found. -/
theorem Stacked.grow {more : List BlockTree} (stacked : Stacked source stop next (level :: outer))
    (grows : Grows level other more) (fills : Fills source ⟨stop, stop', next, next'⟩ level.atRules more.reverse)
    (later : stop ≤ stop') (further : next ≤ next') : Stacked source stop' next' (other :: outer) := by
  have shape : other.blocks.reverse = level.blocks.reverse ++ more.reverse := by rw [grows.blocks, List.reverse_append]
  cases outer with
  | nil =>
    have sheet : Fills source ⟨0, stop, 0, next⟩ level.atRules level.blocks.reverse := stacked
    have whole : Fills source ⟨0, stop', 0, next'⟩ level.atRules (level.blocks.reverse ++ more.reverse) :=
      sheet.append fills ⟨Nat.le_refl 0, later, Nat.le_refl 0, further⟩
        ⟨Nat.zero_le stop, Nat.le_refl stop', Nat.zero_le next, Nat.le_refl next'⟩ (Nat.le_refl stop) (Nat.le_refl next)
    rw [Stacked, grows.atRules, shape]
    exact whole
  | cons around outer =>
    obtain ⟨before, room, opens, rfl, rfl, found, outside⟩ := stacked
    have whole : Fills source ⟨room.start, stop', room.first, next'⟩ level.atRules (level.blocks.reverse ++ more.reverse) :=
      found.append fills ⟨Nat.le_refl _, later, Nat.le_refl _, further⟩
        ⟨opens.stop, Nat.le_refl stop', opens.next, Nat.le_refl next'⟩ (Nat.le_refl _) (Nat.le_refl _)
    rw [Stacked, grows.start, grows.atRules, shape]
    refine ⟨before, _, ?_, rfl, rfl, whole, outside⟩
    constructor
    · rw [grows.start]
      exact opens.begins
    · rw [grows.atRules]
      exact opens.atRules
    · rw [grows.order]
      exact opens.own
    · rw [grows.start]
      exact opens.start
    · exact Nat.le_trans opens.stop later
    · exact opens.first
    · exact Nat.le_trans opens.next further

theorem Stacked.wait (stacked : Stacked source stop next (level :: outer)) (grows : Grows level other [])
    (later : stop ≤ stop') (further : next ≤ next') : Stacked source stop' next' (other :: outer) :=
  stacked.grow grows (fills_nil source _ _) later further

theorem Stacked.enter (stacked : Stacked source stop next (level :: outer)) {inner : Level}
    (begins : Begins source inner.start)
    (start : inner.start.offset = stop) (atRules : level.atRules <+: inner.atRules) (empty : inner.blocks = [])
    (own : ∀ order, ownOrder inner = some order → order = next ∧ next' = order + 1) (later : stop < stop')
    (further : next ≤ next') : Stacked source stop' next' (inner :: level :: outer) := by
  have outside : Stacked source inner.start.offset next (level :: outer) := by rwa [start]
  have room : Opens source level inner next ⟨inner.start.offset + 1, stop', next', next'⟩ := by
    refine ⟨begins, atRules, own, rfl, ?_, further, Nat.le_refl next'⟩
    rw [start]
    exact later
  refine ⟨next, _, room, rfl, rfl, ?_, outside⟩
  rw [empty]
  exact fills_nil source _ _

section Closing

variable {here : Place} (at_ : At source here) (brace : source[here.offset]? = some '\x7d')

include at_ brace

/-- The block of a level that ends here. -/
theorem found_sits (begins : Begins source level.start) (before : level.start.offset < here.offset)
    (selector : Text) (order : Nat) :
    Sits source (level.found selector order here) where
  filled := Nat.lt_succ_of_lt before
  first := begins.2
  last := brace
  startLine := begins.1.line
  endLine := at_.line

/-- What a level gives to the one around it stands behind all that has been found there. -/
theorem close_grows {before : Nat} {room : Room} (opens : Opens source around level before room)
    (ended : room.stop ≤ here.offset)
    (found : Fills source room level.atRules level.blocks.reverse) :
    ∃ more, Grows around (level.close around here) more ∧
      Fills source ⟨level.start.offset, here.offset + 1, before, room.next⟩ around.atRules more.reverse := by
  have start := opens.start
  have stop := opens.stop
  have first := opens.first
  have next := opens.next
  have wider : Wider ⟨level.start.offset, here.offset + 1, before, room.next⟩ room :=
    ⟨by rw [start]; exact Nat.le_succ _, Nat.le_succ_of_le ended, first, Nat.le_refl _⟩
  -- A block of its own stands around what the level has found.
  have owned : ∀ selector order, ownOrder level = some order →
      Sits source (level.found selector order here) ∧ order = before ∧ order < room.next ∧
        Fits source (inside (level.found selector order here) room.next) level.atRules (blocksIn level.blocks.reverse) := by
    intro selector order own
    obtain ⟨rfl, number⟩ := opens.own order own
    refine ⟨found_sits at_ brace opens.begins (by omega) selector order, rfl, by omega, ?_⟩
    exact found.fits.widen ⟨by rw [start]; exact Nat.le_refl _, ended, by rw [number]; exact Nat.le_refl _, Nat.le_refl _⟩
      (List.prefix_refl _)
  have placed : ∀ selector order, order = before →
      Wider ⟨level.start.offset, here.offset + 1, before, room.next⟩
        (taken (level.found selector order here) room.next) := by
    rintro selector order rfl
    exact ⟨Nat.le_refl _, Nat.le_refl _, Nat.le_refl _, Nat.le_refl _⟩
  cases kind : level.kind with
  | sheet =>
    refine ⟨[], ?_, fills_nil source _ _⟩
    rw [Level.close, kind]
    exact ⟨rfl, rfl, rfl, rfl⟩
  | passed depth keep =>
    refine ⟨[], ?_, fills_nil source _ _⟩
    rw [Level.close, kind]
    exact ⟨rfl, rfl, rfl, rfl⟩
  | group =>
    refine ⟨level.blocks, ?_, found.widen wider opens.atRules⟩
    rw [Level.close, kind]
    exact ⟨rfl, rfl, rfl, rfl⟩
  | style selector order =>
    obtain ⟨sits, same, number, inner⟩ := owned selector order (by rw [ownOrder, kind])
    have whole := (Fits.around sits inner number).widen (placed selector order same) opens.atRules
    refine ⟨[.node (level.found selector order here) level.blocks.reverse], ?_, ?_, ?_, trivial⟩
    · rw [Level.close, kind]
      exact ⟨rfl, rfl, rfl, rfl⟩
    · rw [List.reverse_singleton, blocksIn, blocksOf, blocksIn, List.append_nil]
      exact whole
    · exact ⟨inner.surrounded sits, found.nested⟩
  | nestedGroup order =>
    by_cases none : level.declarations.isEmpty = true
    · refine ⟨level.blocks, ?_, found.widen wider opens.atRules⟩
      rw [Level.close, kind]
      simp only [none, if_true, List.append_nil]
      exact ⟨rfl, rfl, rfl, rfl⟩
    · obtain ⟨sits, same, number, inner⟩ := owned ['&'] order (by rw [ownOrder, kind])
      have whole := (Fits.around sits inner number).widen (placed ['&'] order same) opens.atRules
      refine ⟨level.blocks ++ [.node (level.found ['&'] order here) []], ?_, ?_, ?_⟩
      · rw [Level.close, kind]
        simp only [none, Bool.false_eq_true, if_false]
        exact ⟨rfl, rfl, rfl, by simp⟩
      · rw [List.reverse_append, List.reverse_singleton, List.singleton_append, blocksIn, blocksOf, blocksIn,
        List.singleton_append]
        exact whole
      · rw [List.reverse_append, List.reverse_singleton, List.singleton_append]
        exact ⟨⟨by simp [blocksIn], trivial⟩, found.nested⟩

theorem Stacked.leave (stacked : Stacked source stop next (level :: around :: outer)) (ended : stop ≤ here.offset) :
    Stacked source (here.offset + 1) next (level.close around here :: outer) := by
  obtain ⟨before, room, opens, rfl, rfl, found, outside⟩ := stacked
  obtain ⟨more, grows, fills⟩ := close_grows at_ brace opens ended found
  have start := opens.start
  have stop := opens.stop
  exact outside.grow grows fills (by omega) (Nat.le_trans opens.first opens.next)

end Closing

theorem Stacked.drop (stacked : Stacked source stop next (level :: around :: outer)) (later : stop ≤ stop') :
    Stacked source stop' next (around :: outer) := by
  obtain ⟨before, room, opens, rfl, rfl, -, outside⟩ := stacked
  have start := opens.start
  have stop := opens.stop
  exact outside.wait ⟨rfl, rfl, rfl, rfl⟩ (by omega) (Nat.le_trans opens.first opens.next)

end Stacks

end CascadeLens.Proofs.SheetStack
