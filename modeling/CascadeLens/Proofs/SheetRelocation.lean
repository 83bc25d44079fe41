import CascadeLens.Proofs.SheetSimulation

/-! A text that is read behind another one. Where the front ends between two items, nothing that a reader knows
about it but its own findings and counts comes into what follows: each step does the same as at the start of a
text, at places that lie further on. -/

namespace CascadeLens.Proofs.SheetRelocation
open Text TextShape SheetSteps SheetSimulation

/-- What lies in front of a text: characters, lines, and style blocks begun. -/
structure Distance where
  offset : Nat
  lines : Nat
  blocks : Nat

def moveFault (lines : Nat) (fault : Fault) : Fault := { fault with line := fault.line + lines }

def moveDeclaration (lines : Nat) (declaration : RawDeclaration) : RawDeclaration :=
  { declaration with line := declaration.line + lines }

section Moving

variable (far : Distance)

def movePlace (place : Place) : Place := ⟨place.offset + far.offset, place.line + far.lines, place.column⟩

def moveMode : ReadMode → ReadMode
  | .plain => .plain
  | .commentMark start => .commentMark (movePlace far start)
  | .comment start => .comment (movePlace far start)
  | .commentEnd => .commentEnd
  | .lineComment => .lineComment
  | .string quote start => .string quote (movePlace far start)
  | .stringEscape quote start => .stringEscape quote (movePlace far start)
  | .escape => .escape
  | .interpolation depth start => .interpolation depth (movePlace far start)

def moveKind : LevelKind → LevelKind
  | .sheet => .sheet
  | .style selector order => .style selector (order + far.blocks)
  | .group => .group
  | .nestedGroup order => .nestedGroup (order + far.blocks)
  | .passed depth keep => .passed depth keep

def moveFound (block : FoundBlock) : FoundBlock :=
  { block with
    start := block.start + far.offset
    stop := block.stop + far.offset
    startLine := block.startLine + far.lines
    endLine := block.endLine + far.lines
    order := block.order + far.blocks
    declarations := block.declarations.map (moveDeclaration far.lines) }

def moveAtBlock (block : FoundAtBlock) : FoundAtBlock :=
  { block with
    start := block.start + far.offset
    stop := block.stop + far.offset
    startLine := block.startLine + far.lines
    endLine := block.endLine + far.lines }

mutual

def moveTree : BlockTree → BlockTree
  | .node block children => .node (moveFound far block) (moveTrees children)

def moveTrees : List BlockTree → List BlockTree
  | [] => []
  | tree :: rest => moveTree tree :: moveTrees rest

end

theorem moveTrees_eq (trees : List BlockTree) : moveTrees far trees = trees.map (moveTree far) := by
  induction trees with
  | nil => rfl
  | cons tree rest ih => rw [moveTrees, ih, List.map_cons]

theorem after_moved (place : Place) (c : Char) : (movePlace far place).after c = movePlace far (place.after c) := by
  unfold Place.after movePlace
  split <;> simp only [Place.mk.injEq, and_true] <;> omega

end Moving

/-- What has been found in front, the latest first. -/
structure Past where
  blocks : List BlockTree := []
  declarations : List RawDeclaration := []
  keyframes : List FoundAtBlock := []
  properties : List FoundAtBlock := []

/-- A level that lies further on, behind what has been found on it before. Blanks may stand in front of its
item. -/
structure Moved (far : Distance) (past : Past) (level moved : Level) : Prop where
  kind : moved.kind = moveKind far level.kind
  atRules : moved.atRules = level.atRules
  declarations : moved.declarations = level.declarations.map (moveDeclaration far.lines) ++ past.declarations
  blocks : moved.blocks = moveTrees far level.blocks ++ past.blocks
  item : ∃ gap, (∀ c ∈ gap, isBlank c = true) ∧ moved.item = level.item ++ gap
  itemStart : moved.itemStart = level.itemStart.map (movePlace far)
  parens : moved.parens = level.parens

section Levels

variable {far : Distance} {past : Past} {level moved : Level}

theorem Moved.isPassed (behind : Moved far past level moved) : moved.isPassed = level.isPassed := by
  unfold Level.isPassed
  rw [behind.kind]
  cases level.kind <;> rfl

theorem Moved.inStyle (behind : Moved far past level moved) : moved.inStyle = level.inStyle := by
  unfold Level.inStyle
  rw [behind.kind]
  cases level.kind <;> rfl

theorem Moved.trim_item (behind : Moved far past level moved) : trim moved.item.reverse = trim level.item.reverse := by
  obtain ⟨gap, white, item⟩ := behind.item
  have front : ∀ c ∈ gap.reverse, isBlank c = true := fun c member => white c (List.mem_reverse.mp member)
  rw [item, List.reverse_append, trim, trimLeft_behind_blanks front, trim]

theorem Moved.keep (behind : Moved far past level moved) (c : Char) : Moved far past (level.keep c) (moved.keep c) := by
  obtain ⟨gap, white, item⟩ := behind.item
  exact { behind with item := ⟨gap, white, congrArg (c :: ·) item⟩ }

theorem Moved.counted (behind : Moved far past level moved) (parens : Nat) :
    Moved far past { level with parens } { moved with parens } :=
  { behind with parens := rfl }

theorem Moved.begin (behind : Moved far past level moved) (here : Place) (c : Char) :
    Moved far past (level.begin here c) (moved.begin (movePlace far here) c) := by
  unfold Level.begin
  rw [behind.itemStart, Option.isNone_map]
  split
  · exact { behind with itemStart := rfl }
  · exact behind

theorem Moved.clear (behind : Moved far past level moved) : Moved far past level.clear moved.clear :=
  { behind with item := ⟨[], nofun, rfl⟩, itemStart := rfl }

theorem flush_start (level : Level) : level.flush.start = level.start := by
  unfold Level.flush
  split <;> rfl

theorem close_start (level around : Level) (here : Place) : (level.close around here).start = around.start := by
  unfold Level.close
  split <;> rfl

theorem Moved.flush (behind : Moved far past level moved) : Moved far past level.flush moved.flush := by
  unfold Level.flush
  rw [behind.trim_item, behind.itemStart]
  cases level.itemStart with
  | none => exact behind.clear
  | some start =>
    cases trim level.item.reverse with
    | nil => exact behind.clear
    | cons c rest => exact { behind.clear with declarations := congrArg (_ :: ·) behind.declarations }

/-- A brace opens the same block, further on. Nothing has been found in it. -/
theorem Moved.inner (behind : Moved far past level moved) (here : Place) (count : Nat) :
    Moved far {} (level.inner here count) (moved.inner (movePlace far here) (count + far.blocks)) ∧
      (moved.inner (movePlace far here) (count + far.blocks)).start = movePlace far (level.inner here count).start := by
  have start : (moved.itemStart.getD (movePlace far here)) = movePlace far (level.itemStart.getD here) := by
    rw [behind.itemStart]
    cases level.itemStart <;> rfl
  unfold Level.inner
  rw [behind.trim_item, behind.atRules, behind.inStyle, start]
  split
  · dsimp only
    split_ifs <;> exact ⟨⟨rfl, rfl, rfl, rfl, ⟨[], nofun, rfl⟩, rfl, rfl⟩, rfl⟩
  · exact ⟨⟨rfl, rfl, rfl, rfl, ⟨[], nofun, rfl⟩, rfl, rfl⟩, rfl⟩

theorem moveTrees_append (far : Distance) (first second : List BlockTree) :
    moveTrees far (first ++ second) = moveTrees far first ++ moveTrees far second := by
  simp only [moveTrees_eq, List.map_append]

theorem moveTrees_reverse (far : Distance) (trees : List BlockTree) :
    moveTrees far trees.reverse = (moveTrees far trees).reverse := by
  simp only [moveTrees_eq, List.map_reverse]

theorem Moved.found (behind : Moved far {} level moved) (start : moved.start = movePlace far level.start)
    (selector : Text) (order : Nat) (here : Place) :
    moved.found selector (order + far.blocks) (movePlace far here) = moveFound far (level.found selector order here) := by
  have stop : (movePlace far here).offset + 1 = here.offset + 1 + far.offset := Nat.add_right_comm _ _ _
  unfold Level.found moveFound
  rw [behind.atRules, behind.declarations, start, stop, List.append_nil, List.map_reverse]
  rfl

theorem Moved.close {around around' : Level} (behind : Moved far {} level moved)
    (start : moved.start = movePlace far level.start) (outside : Moved far past around around') (here : Place) :
    Moved far past (level.close around here) (moved.close around' (movePlace far here)) := by
  have kind := behind.kind
  have blocks := behind.blocks
  have declarations := behind.declarations
  rw [List.append_nil] at blocks declarations
  unfold Level.close
  rw [kind]
  cases level.kind with
  | sheet | passed => exact outside
  | group =>
    dsimp only [moveKind]
    rw [declarations, blocks]
    refine { outside with declarations := ?_, blocks := ?_ }
    · rw [outside.declarations, List.map_append, List.append_assoc]
    · rw [outside.blocks, moveTrees_append, List.append_assoc]
  | style selector order =>
    dsimp only [moveKind]
    rw [behind.found start, blocks, ← moveTrees_reverse]
    refine { outside with blocks := ?_ }
    rw [outside.blocks]
    rfl
  | nestedGroup order =>
    have own : (if moved.declarations.isEmpty then [] else
        [.node (moved.found ['&'] (order + far.blocks) (movePlace far here)) []]) =
          moveTrees far (if level.declarations.isEmpty then [] else [.node (level.found ['&'] order here) []]) := by
      rw [declarations, List.isEmpty_map, behind.found start]
      split <;> rfl
    dsimp only [moveKind]
    rw [own, blocks]
    refine { outside with blocks := ?_ }
    simp only [outside.blocks, moveTrees_append, List.append_assoc]

end Levels

/-- Levels from the inside out: all lie further on, and the outermost one is behind what has been found before. -/
def Stack (far : Distance) (past : Past) (level : Level) (outer : List Level) (moved : Level) (outer' : List Level) : Prop :=
  match outer, outer' with
  | [], [] => Moved far past level moved
  | around :: outer, around' :: outer' =>
    (Moved far {} level moved ∧ moved.start = movePlace far level.start) ∧ Stack far past around outer around' outer'
  | _, _ => False

section Stacks

variable {far : Distance} {past : Past} {level moved : Level} {outer outer' : List Level}

/-- A change of the innermost level that goes with the move. -/
theorem Stack.update (stack : Stack far past level outer moved outer') {next next' : Level}
    (change : ∀ past, Moved far past level moved → Moved far past next next')
    (start : next.start = level.start) (start' : next'.start = moved.start) :
    Stack far past next outer next' outer' := by
  match outer, outer', stack with
  | [], [], behind => exact change past behind
  | _ :: _, _ :: _, ⟨⟨behind, begins⟩, outside⟩ =>
    exact ⟨⟨change {} behind, by rw [start, start', begins]⟩, outside⟩

theorem Stack.cases (stack : Stack far past level outer moved outer') :
    (outer = [] ∧ outer' = [] ∧ Moved far past level moved) ∨
      ∃ around more around' more', outer = around :: more ∧ outer' = around' :: more' ∧
        Moved far {} level moved ∧ moved.start = movePlace far level.start ∧ Stack far past around more around' more' := by
  match outer, outer', stack with
  | [], [], behind => exact Or.inl ⟨rfl, rfl, behind⟩
  | around :: more, around' :: more', ⟨⟨behind, start⟩, outside⟩ =>
    exact Or.inr ⟨around, more, around', more', rfl, rfl, behind, start, outside⟩

theorem Stack.innermost (stack : Stack far past level outer moved outer') : ∃ found, Moved far found level moved := by
  match outer, outer', stack with
  | [], [], behind => exact ⟨past, behind⟩
  | _ :: _, _ :: _, ⟨⟨behind, _⟩, _⟩ => exact ⟨{}, behind⟩

end Stacks

/-- A reader that has come as far in a text as another one, with a front before it. -/
structure Carried (far : Distance) (past : Past) (reader moved : SheetReader) : Prop where
  here : moved.here = movePlace far reader.here
  mode : moved.mode = moveMode far reader.mode
  stack : Stack far past reader.level reader.outer moved.level moved.outer
  count : moved.count = reader.count + far.blocks
  keyframes : moved.keyframes = reader.keyframes.map (moveAtBlock far) ++ past.keyframes
  properties : moved.properties = reader.properties.map (moveAtBlock far) ++ past.properties

/-- The same outcome, further on. -/
def Follows (far : Distance) (past : Past) : Except Fault SheetReader → Except Fault SheetReader → Prop
  | .ok after, .ok moved => Carried far past after moved
  | .error fault, .error moved => moved = moveFault far.lines fault
  | _, _ => False

section Readers

variable {far : Distance} {past : Past} {reader moved : SheetReader}

/-- A change of the innermost level that goes with the move. -/
theorem Carried.update (carried : Carried far past reader moved) {level level' : Level}
    (change : ∀ found, Moved far found reader.level moved.level → Moved far found level level')
    (start : level.start = reader.level.start) (start' : level'.start = moved.level.start) :
    Carried far past { reader with level } { moved with level := level' } :=
  { carried with stack := carried.stack.update change start start' }

theorem Carried.turn (carried : Carried far past reader moved) (mode : ReadMode) :
    Carried far past { reader with mode } { moved with mode := moveMode far mode } :=
  { carried with mode := rfl }

theorem Carried.keep (carried : Carried far past reader moved) (c : Char) :
    Carried far past { reader with level := reader.level.keep c } { moved with level := moved.level.keep c } :=
  carried.update (fun _ behind => behind.keep c) rfl rfl

theorem Carried.count_parens (carried : Carried far past reader moved) (parens : Nat) :
    Carried far past { reader with level := { reader.level with parens } }
      { moved with level := { moved.level with parens } } :=
  carried.update (fun _ behind => behind.counted parens) rfl rfl

theorem Carried.noting (carried : Carried far past reader moved) (c : Char) :
    Carried far past (noting reader c) (noting moved c) := by
  refine carried.update ?_ (noted_start _ _ _) (noted_start _ _ _)
  rw [carried.here]
  exact fun _ behind => behind.begin reader.here c

theorem Carried.enter (carried : Carried far past reader moved) : Carried far past reader.enter moved.enter := by
  obtain ⟨found, behind⟩ := carried.stack.innermost
  obtain ⟨inside, start⟩ := behind.inner reader.here reader.count
  have stack := carried.stack.update (fun _ behind => behind.clear) rfl rfl
  unfold SheetReader.enter
  rw [carried.here, carried.count]
  refine { carried with here := rfl, stack := ⟨⟨inside, start⟩, stack⟩, count := ?_ }
  dsimp only
  rw [inside.inStyle]
  split
  · exact Nat.add_right_comm _ _ _
  · rfl

theorem Carried.leave (carried : Carried far past reader moved) : Follows far past reader.leave moved.leave := by
  unfold SheetReader.leave
  rcases carried.stack.cases with ⟨outer, outer', -⟩ | ⟨around, more, around', more', outer, outer', behind, start, outside⟩
  · rw [outer, outer', carried.here]
    rfl
  · rw [outer, outer', carried.here]
    have begins : moved.level.flush.start = movePlace far reader.level.flush.start := by rw [flush_start, flush_start, start]
    have left := outside.update (fun _ around => behind.flush.close begins around reader.here) (close_start _ _ _)
      (close_start _ _ _)
    exact { carried with here := rfl, stack := left }

theorem Carried.leavePassed (carried : Carried far past reader moved) (keep : Option AtRule) :
    Carried far past (reader.leavePassed keep) (moved.leavePassed keep) := by
  unfold SheetReader.leavePassed
  rcases carried.stack.cases with ⟨outer, outer', -⟩ | ⟨around, more, around', more', outer, outer', -, start, outside⟩
  · rw [outer, outer']
    exact carried
  · rw [outer, outer']
    have left : Carried far past { reader with level := around, outer := more } { moved with level := around', outer := more' } :=
      { carried with stack := outside }
    cases keep with
    | none => exact left
    | some rule =>
      obtain ⟨_, under⟩ := outside.innermost
      have stop : (movePlace far reader.here).offset + 1 = reader.here.offset + 1 + far.offset := Nat.add_right_comm _ _ _
      dsimp only
      rw [carried.here, start, stop, under.atRules]
      split
      · exact { left with here := rfl, properties := congrArg (_ :: ·) carried.properties }
      · exact { left with here := rfl, keyframes := congrArg (_ :: ·) carried.keyframes }

theorem Carried.same_passed (carried : Carried far past reader moved) {depth : Nat} {keep keep' : Option AtRule}
    (kind : reader.level.kind = .passed depth keep) (kind' : moved.level.kind = .passed depth keep') : keep = keep' := by
  obtain ⟨_, own⟩ := carried.stack.innermost
  rw [own.kind, kind] at kind'
  exact (LevelKind.passed.inj kind').2

theorem modes_moved (far : Distance) (mode : ReadMode) :
    Modes (fun place moved => moved = movePlace far place) mode (moveMode far mode) := by
  cases mode <;> constructor <;> rfl

theorem eq_moveMode {mode moved : ReadMode} (modes : Modes (fun place moved => moved = movePlace far place) mode moved) :
    moved = moveMode far mode := by
  cases modes <;> simp_all [moveMode]

theorem follows_iff {alone behind : Except Fault SheetReader} : Follows far past alone behind ↔
    Outcomes (Carried far past) (fun fault moved => moved = moveFault far.lines fault) alone behind := by
  cases alone <;> cases behind <;> rfl

/-- A front changes nothing but what the relation says. -/
theorem carried_lockstep (far : Distance) (past : Past) :
    Lockstep (fun place moved => moved = movePlace far place) (fun fault moved => moved = moveFault far.lines fault)
      (Carried far past) where
  fault kind same := by
    rw [same]
    rfl
  after c same := by rw [same, after_moved]
  here carried := carried.here
  mode carried := carried.mode ▸ modes_moved far _
  parens carried := by
    obtain ⟨_, own⟩ := carried.stack.innermost
    exact own.parens
  passed carried _ keep kind := by
    obtain ⟨_, own⟩ := carried.stack.innermost
    exact ⟨keep, by rw [own.kind, kind]; rfl⟩
  unpassed carried read := by
    obtain ⟨_, own⟩ := carried.stack.innermost
    exact own.isPassed.trans read
  move carried _ _ same := { carried with here := same }
  turn carried _ _ modes := { carried with mode := eq_moveMode modes }
  keep carried := carried.keep
  count carried := carried.count_parens
  note carried := carried.noting
  sink carried _ _ _ kind kind' depth := by
    obtain rfl := carried.same_passed kind kind'
    exact carried.update (fun _ behind => { behind with kind := rfl }) rfl rfl
  leavePassed carried _ keep _ kind kind' := by
    obtain rfl := carried.same_passed kind kind'
    exact carried.leavePassed keep
  flush carried _ := carried.update (fun _ behind => behind.flush) (flush_start _) (flush_start _)
  enter carried _ := carried.enter
  leave carried _ := follows_iff.mp carried.leave

theorem Carried.run (carried : Carried far past reader moved) (lineComments : Bool) (s : Text) :
    Follows far past (reader.run lineComments s) (moved.run lineComments s) :=
  follows_iff.mpr ((carried_lockstep far past).run carried lineComments s)

def moveFindings (far : Distance) (past : Past) (findings : Findings) : Findings where
  blocks := past.blocks.reverse ++ moveTrees far findings.blocks
  keyframes := past.keyframes.reverse ++ findings.keyframes.map (moveAtBlock far)
  properties := past.properties.reverse ++ findings.properties.map (moveAtBlock far)
  declarations := past.declarations.reverse ++ findings.declarations.map (moveDeclaration far.lines)

def moveOutcome (far : Distance) (past : Past) : Except Fault Findings → Except Fault Findings
  | .ok findings => .ok (moveFindings far past findings)
  | .error fault => .error (moveFault far.lines fault)

/-- The end of a reader that is in the middle of nothing but blocks. -/
def ending (reader : SheetReader) : Except Fault Findings :=
  match reader.outer with
  | _ :: _ => .error (reader.level.start.fault .unclosedBlock)
  | [] =>
    let level := reader.level.flush
    .ok ⟨level.blocks.reverse, reader.keyframes.reverse, reader.properties.reverse, level.declarations.reverse⟩

theorem Carried.ending (carried : Carried far past reader moved) :
    ending moved = moveOutcome far past (ending reader) := by
  unfold SheetRelocation.ending
  rcases carried.stack.cases with ⟨outer, outer', behind⟩ | ⟨around, more, around', more', outer, outer', -, start, -⟩
  · have flushed := behind.flush
    rw [outer, outer']
    dsimp only [moveOutcome, moveFindings]
    rw [flushed.blocks, flushed.declarations, carried.keyframes, carried.properties, moveTrees_reverse]
    simp only [List.reverse_append, List.map_reverse]
  · rw [outer, outer']
    dsimp only
    rw [start]
    rfl

/-- What is found at the end stands behind what has been found in front. -/
theorem Carried.finish (carried : Carried far past reader moved) :
    moved.finish = moveOutcome far past reader.finish := by
  unfold SheetReader.finish
  rw [carried.mode]
  cases mode : reader.mode with
  | commentMark start | comment start | string quote start | stringEscape quote start | interpolation depth start => rfl
  | plain | commentEnd | lineComment | escape => exact carried.ending

theorem moveOutcome_iff {alone behind : Except Fault Findings} : behind = moveOutcome far past alone ↔
    Outcomes (fun own found => found = moveFindings far past own) (fun fault moved => moved = moveFault far.lines fault)
      alone behind := by
  cases alone <;> cases behind <;> simp [moveOutcome, Outcomes]

theorem Carried.outcome (carried : Carried far past reader moved) (lineComments : Bool) (s : Text) :
    outcome lineComments moved s = moveOutcome far past (outcome lineComments reader s) :=
  moveOutcome_iff.mpr ((carried_lockstep far past).outcome (fun ended => moveOutcome_iff.mp ended.finish) carried lineComments s)

end Readers

end CascadeLens.Proofs.SheetRelocation
