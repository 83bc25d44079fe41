import CascadeLens.Proofs.SheetSeam
import Mathlib.Data.List.Forall2

/-! What places do to a reading. Lines come into what is found, offsets into the texts of blocks and columns into
faults, and none of them decides how a text is read. So two readers that differ in places only find the same up
to offsets, and fail alike up to columns. -/

namespace CascadeLens.Proofs.SheetPlaces
open Text SheetSteps SheetRelocation SheetSimulation SheetSeam

/-- A view of offsets that goes on the same from offsets that look the same: all of them or none. -/
def Steady (sight : Nat → Nat) : Prop := ∀ first second, sight first = sight second → sight (first + 1) = sight (second + 1)

section Blurring

variable (sight : Nat → Nat)

/-- Places on one line whose offsets look the same. -/
def Near (place other : Place) : Prop := other.line = place.line ∧ sight other.offset = sight place.offset

/-- Faults of one kind on one line. -/
def AlikeFaults (fault other : Fault) : Prop := other.kind = fault.kind ∧ other.line = fault.line

def blurFound (block : FoundBlock) : FoundBlock := { block with start := sight block.start, stop := sight block.stop }

def blurAtBlock (block : FoundAtBlock) : FoundAtBlock := { block with start := sight block.start, stop := sight block.stop }

mutual

def blurTree : BlockTree → BlockTree
  | .node block children => .node (blurFound sight block) (blurTrees children)

def blurTrees : List BlockTree → List BlockTree
  | [] => []
  | tree :: rest => blurTree tree :: blurTrees rest

end

def blurFindings (findings : Findings) : Findings :=
  { findings with
    blocks := blurTrees sight findings.blocks
    keyframes := findings.keyframes.map (blurAtBlock sight)
    properties := findings.properties.map (blurAtBlock sight) }

theorem blurTrees_eq (trees : List BlockTree) : blurTrees sight trees = trees.map (blurTree sight) := by
  induction trees with
  | nil => rfl
  | cons tree rest ih => rw [blurTrees, ih, List.map_cons]

theorem blurTrees_append (first second : List BlockTree) :
    blurTrees sight (first ++ second) = blurTrees sight first ++ blurTrees sight second := by
  simp only [blurTrees_eq, List.map_append]

theorem blurTrees_reverse (trees : List BlockTree) : blurTrees sight trees.reverse = (blurTrees sight trees).reverse := by
  simp only [blurTrees_eq, List.map_reverse]

mutual

/-- With every offset in sight nothing is blurred. -/
theorem blurTree_id (tree : BlockTree) : blurTree id tree = tree := by
  cases tree with
  | node block children =>
    rw [blurTree, blurTrees_id children]
    rfl

theorem blurTrees_id (trees : List BlockTree) : blurTrees id trees = trees := by
  cases trees with
  | nil => rfl
  | cons tree rest => rw [blurTrees, blurTree_id tree, blurTrees_id rest]

end

theorem blurFindings_id (findings : Findings) : blurFindings id findings = findings := by
  have same : blurAtBlock id = id := rfl
  rw [blurFindings, blurTrees_id, same, List.map_id, List.map_id]

theorem Near.after {sight : Nat → Nat} (steady : Steady sight) {place other : Place} (near : Near sight place other) (c : Char) :
    Near sight (place.after c) (other.after c) := by
  obtain ⟨line, offset⟩ := near
  have onward := steady _ _ offset
  unfold Place.after
  split
  · exact ⟨congrArg (· + 1) line, onward⟩
  · exact ⟨line, onward⟩

/-- Levels that differ in the places behind them. What a level keeps that is passed over does not count. -/
structure Alike (level other : Level) : Prop where
  kind : other.kind = level.kind
  atRules : other.atRules = level.atRules
  start : Near sight level.start other.start
  declarations : other.declarations = level.declarations
  blocks : blurTrees sight other.blocks = blurTrees sight level.blocks
  item : level.isPassed = false → other.item = level.item
  itemStart : Option.Rel (Near sight) level.itemStart other.itemStart
  parens : other.parens = level.parens

/-- Readers that have read the same from the start of a sheet, up to places. -/
structure Paired (reader other : SheetReader) : Prop where
  here : Near sight reader.here other.here
  mode : Modes (Near sight) reader.mode other.mode
  level : Alike sight reader.level other.level
  outer : List.Forall₂ (Alike sight) reader.outer other.outer
  count : other.count = reader.count
  keyframes : other.keyframes.map (blurAtBlock sight) = reader.keyframes.map (blurAtBlock sight)
  properties : other.properties.map (blurAtBlock sight) = reader.properties.map (blurAtBlock sight)
  bottom : Bottom reader.level reader.outer

theorem near_refl (place : Place) : Near sight place place := ⟨rfl, rfl⟩

theorem alike_refl (level : Level) : Alike sight level level :=
  ⟨rfl, rfl, near_refl sight _, rfl, rfl, fun _ => rfl, by cases level.itemStart <;> constructor; exact near_refl sight _, rfl⟩

theorem modes_refl (mode : ReadMode) : Modes (Near sight) mode mode := by
  cases mode <;> constructor
  all_goals exact near_refl sight _

/-- A reader and the same one at another place that looks alike. -/
theorem paired_elsewhere {reader : SheetReader} (bottom : Bottom reader.level reader.outer) {here : Place}
    (near : Near sight reader.here here) : Paired sight reader { reader with here } :=
  ⟨near, modes_refl sight _, alike_refl sight _, List.forall₂_same.mpr fun level _ => alike_refl sight level, rfl, rfl, rfl, bottom⟩

end Blurring

section Levels

variable {sight : Nat → Nat} {level other around around' : Level} {here here' : Place}

theorem Alike.isPassed (alike : Alike sight level other) : other.isPassed = level.isPassed := by
  unfold Level.isPassed
  rw [alike.kind]

theorem Alike.inStyle (alike : Alike sight level other) : other.inStyle = level.inStyle := by
  unfold Level.inStyle
  rw [alike.kind]

theorem Alike.keep (alike : Alike sight level other) (c : Char) : Alike sight (level.keep c) (other.keep c) :=
  { alike with item := fun read => congrArg (c :: ·) (alike.item read) }

theorem Alike.begin (alike : Alike sight level other) (near : Near sight here here') (c : Char) :
    Alike sight (level.begin here c) (other.begin here' c) := by
  have bare : other.itemStart.isNone = level.itemStart.isNone := by
    have begun := alike.itemStart
    generalize level.itemStart = start at begun
    generalize other.itemStart = start' at begun
    cases begun <;> rfl
  unfold Level.begin
  rw [bare]
  split
  · exact { alike with itemStart := .some near }
  · exact alike

theorem Alike.clear (alike : Alike sight level other) : Alike sight level.clear other.clear :=
  { alike with item := fun _ => rfl, itemStart := .none }

theorem Alike.flush (alike : Alike sight level other) (read : level.isPassed = false) : Alike sight level.flush other.flush := by
  have item := alike.item read
  have begun := alike.itemStart
  unfold Level.flush
  rw [item]
  generalize level.itemStart = start at begun
  generalize other.itemStart = start' at begun
  cases begun with
  | none => exact alike.clear
  | some near =>
    cases trim level.item.reverse with
    | nil => exact alike.clear
    | cons c rest =>
      refine { alike.clear with declarations := ?_ }
      dsimp only
      rw [alike.declarations, near.1]

/-- A brace opens the same block. -/
theorem Alike.inner (alike : Alike sight level other) (read : level.isPassed = false) (near : Near sight here here') (count : Nat) :
    Alike sight (level.inner here count) (other.inner here' count) := by
  have start : Near sight (level.itemStart.getD here) (other.itemStart.getD here') := by
    have begun := alike.itemStart
    generalize level.itemStart = start at begun
    generalize other.itemStart = start' at begun
    cases begun with
    | none => exact near
    | some begun => exact begun
  have opened : ∀ kind atRules, Alike sight { kind, atRules, start := level.itemStart.getD here }
      { kind, atRules, start := other.itemStart.getD here' } := fun kind atRules =>
    ⟨rfl, rfl, start, rfl, rfl, fun _ => rfl, .none, rfl⟩
  unfold Level.inner
  rw [alike.item read, alike.atRules, alike.inStyle]
  split
  · dsimp only
    split_ifs <;> exact opened _ _
  · exact opened _ _

theorem Alike.found (alike : Alike sight level other) (steady : Steady sight) (near : Near sight here here') (selector : Text)
    (order : Nat) : blurFound sight (other.found selector order here') = blurFound sight (level.found selector order here) := by
  unfold Level.found blurFound
  dsimp only
  rw [alike.atRules, alike.declarations, alike.start.1, alike.start.2, near.1, steady _ _ near.2]

theorem Alike.close (alike : Alike sight level other) (outside : Alike sight around around') (steady : Steady sight)
    (near : Near sight here here') : Alike sight (level.close around here) (other.close around' here') := by
  have found := fun selector order => alike.found steady near selector order
  unfold Level.close
  rw [alike.kind]
  cases level.kind with
  | sheet | passed => exact outside
  | group =>
    refine { outside with declarations := ?_, blocks := ?_ }
    · rw [alike.declarations, outside.declarations]
    · rw [blurTrees_append, blurTrees_append, alike.blocks, outside.blocks]
  | style selector order =>
    refine { outside with blocks := ?_ }
    simp only [blurTrees, blurTree, found, blurTrees_reverse, alike.blocks, outside.blocks]
  | nestedGroup order =>
    refine { outside with blocks := ?_ }
    dsimp only
    rw [alike.declarations]
    split <;> simp only [blurTrees, blurTree, found, blurTrees_append, alike.blocks, outside.blocks]

end Levels

section Readers

variable {sight : Nat → Nat} {reader other : SheetReader}

theorem Paired.at_level (paired : Paired sight reader other) {level level' : Level} (alike : Alike sight level level')
    (kind : level.kind = reader.level.kind) (atRules : level.atRules = reader.level.atRules) :
    Paired sight { reader with level } { other with level := level' } :=
  { paired with level := alike, bottom := paired.bottom.update kind atRules }

theorem Paired.enter (paired : Paired sight reader other) (read : reader.level.isPassed = false) :
    Paired sight reader.enter other.enter := by
  have inner := paired.level.inner read paired.here reader.count
  unfold SheetReader.enter
  rw [paired.count]
  -- A block opened in a style takes a number, on both sides or on none.
  refine { paired with level := inner, outer := .cons paired.level.clear paired.outer, count := ?_, bottom := ?_ }
  · dsimp only
    rw [inner.inStyle]
  · exact paired.bottom.update rfl rfl

theorem Paired.leave (steady : Steady sight) (paired : Paired sight reader other) (read : reader.level.isPassed = false) :
    Outcomes (Paired sight) AlikeFaults reader.leave other.leave := by
  have outside := paired.outer
  have bottom := paired.bottom
  unfold SheetReader.leave
  generalize reader.outer = outer at outside bottom
  generalize other.outer = outer' at outside
  cases outside with
  | nil => exact ⟨rfl, paired.here.1⟩
  | cons around more =>
    obtain ⟨kind, atRules⟩ := close_same reader.level.flush _ reader.here
    exact { paired with
      level := (paired.level.flush read).close around steady paired.here
      outer := more
      bottom := Bottom.update bottom kind atRules }

theorem Paired.leavePassed (steady : Steady sight) (paired : Paired sight reader other) (keep : Option AtRule) :
    Paired sight (reader.leavePassed keep) (other.leavePassed keep) := by
  have outside := paired.outer
  have bottom := paired.bottom
  unfold SheetReader.leavePassed
  generalize reader.outer = outer at outside bottom
  generalize other.outer = outer' at outside
  cases outside with
  | nil => exact paired
  | @cons around around' more more' near rest =>
    have left : Paired sight { reader with level := around, outer := more } { other with level := around', outer := more' } :=
      { paired with level := near, outer := rest, bottom := bottom }
    cases keep with
    | none => exact left
    | some rule =>
      have block : blurAtBlock sight
          { name := rule.name, params := rule.params, atRules := around'.atRules, start := other.level.start.offset,
            stop := other.here.offset + 1, startLine := other.level.start.line, endLine := other.here.line } =
          blurAtBlock sight
            { name := rule.name, params := rule.params, atRules := around.atRules, start := reader.level.start.offset,
              stop := reader.here.offset + 1, startLine := reader.level.start.line, endLine := reader.here.line } := by
        unfold blurAtBlock
        dsimp only
        rw [near.atRules, paired.level.start.1, paired.level.start.2, paired.here.1, steady _ _ paired.here.2]
      dsimp only
      split
      · exact { left with properties := by rw [List.map_cons, List.map_cons, block, paired.properties] }
      · exact { left with keyframes := by rw [List.map_cons, List.map_cons, block, paired.keyframes] }

theorem paired_lockstep (steady : Steady sight) : Lockstep (Near sight) AlikeFaults (Paired sight) where
  fault kind near := ⟨rfl, near.1⟩
  after c near := near.after steady c
  here paired := paired.here
  mode paired := paired.mode
  parens paired := paired.level.parens
  passed paired _ keep kind := ⟨keep, paired.level.kind.trans kind⟩
  unpassed paired read := paired.level.isPassed.trans read
  move paired _ _ near := { paired with here := near }
  turn paired _ _ modes := { paired with mode := modes }
  keep paired c := paired.at_level (paired.level.keep c) rfl rfl
  count paired parens := paired.at_level { paired.level with parens := rfl } rfl rfl
  note paired c := paired.at_level (paired.level.begin paired.here c) (begin_same _ _ _).1 (begin_same _ _ _).2.1
  sink paired _ _ _ kind kind' depth := by
    obtain rfl := (LevelKind.passed.inj (kind.symm.trans (paired.level.kind.symm.trans kind'))).2
    exact { paired with
      level := { paired.level with kind := rfl, item := fun read => nomatch read }
      bottom := paired.bottom.passed kind _ }
  leavePassed paired _ keep _ kind kind' := by
    obtain rfl := (LevelKind.passed.inj (kind.symm.trans (paired.level.kind.symm.trans kind'))).2
    exact paired.leavePassed steady keep
  flush paired read := paired.at_level (paired.level.flush read) (flush_same _).1 (flush_same _).2
  enter paired read := paired.enter read
  leave paired read := paired.leave steady read

theorem Paired.ending (paired : Paired sight reader other) :
    Outcomes (fun findings others => blurFindings sight others = blurFindings sight findings) AlikeFaults
      (ending reader) (ending other) := by
  have outside := paired.outer
  have bottom := paired.bottom
  unfold SheetRelocation.ending
  generalize reader.outer = outer at outside bottom
  generalize other.outer = outer' at outside
  cases outside with
  | cons around more => exact ⟨rfl, paired.level.start.1⟩
  | nil =>
    have read : reader.level.isPassed = false := by
      unfold Level.isPassed
      rw [bottom.1]
    have flushed := paired.level.flush read
    dsimp only [Outcomes, blurFindings]
    rw [flushed.declarations, blurTrees_reverse, blurTrees_reverse, flushed.blocks]
    simp only [List.map_reverse, paired.keyframes, paired.properties]

/-- Readers that differ in places only end alike. -/
theorem Paired.finish (paired : Paired sight reader other) :
    Outcomes (fun findings others => blurFindings sight others = blurFindings sight findings) AlikeFaults
      reader.finish other.finish := by
  have alike := paired.mode
  have ended := paired.ending
  unfold SheetReader.finish
  generalize reader.mode = mode at alike
  generalize other.mode = mode' at alike
  cases alike with
  | commentMark near | comment near | string _ near | stringEscape _ near | interpolation _ near => exact ⟨rfl, near.1⟩
  | plain | commentEnd | lineComment | escape => exact ended

/-- Readers that differ in places only find the same up to places, or fail alike. -/
theorem Paired.outcome (steady : Steady sight) (paired : Paired sight reader other) (lineComments : Bool) (s : Text) :
    Outcomes (fun findings others => blurFindings sight others = blurFindings sight findings) AlikeFaults
      (outcome lineComments reader s) (outcome lineComments other s) :=
  (paired_lockstep steady).outcome (·.finish) paired lineComments s

end Readers

end CascadeLens.Proofs.SheetPlaces
