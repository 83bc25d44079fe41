import CascadeLens.Proofs.SheetFindings
import CascadeLens.Proofs.SheetRun
import CascadeLens.Proofs.SheetSeam

/-! Two stylesheets one behind the other. Where the first ends idle, the two are read as if each stood alone: the
findings of the second follow those of the first, with their lines and numbers moved on. -/

namespace CascadeLens.Proofs.SheetConcatenation
open Text SheetSteps SheetForest SheetRun SheetFindings SheetSimulation SheetRelocation SheetSeam

def moveStyle (lines orders : Nat) (block : StyleBlock) : StyleBlock :=
  { block with startLine := block.startLine + lines, endLine := block.endLine + lines, order := block.order + orders }

/-- A rule that stands further on, with the rules around it. -/
def moveRule (lines orders : Nat) (rule : Rule) : Rule :=
  ⟨moveStyle lines orders rule.toStyleBlock, rule.outer.map (moveStyle lines orders)⟩

def moveKept (lines : Nat) (block : AtBlock) : AtBlock :=
  { block with startLine := block.startLine + lines, endLine := block.endLine + lines }

section Texts

variable {front own : Text} {start stop : Nat}

theorem slice_behind (front own : Text) (start stop : Nat) :
    slice (front ++ own) (start + front.length) (stop + front.length) = slice own start stop := by
  rw [slice, Nat.add_comm start, ← List.drop_drop, List.drop_left, Nat.add_comm front.length, Nat.add_sub_add_right]
  rfl

theorem slice_front (bounded : stop ≤ front.length) (own : Text) (start : Nat) :
    slice (front ++ own) start stop = slice front start stop := by
  rw [slice, slice, ← List.drop_take, ← List.drop_take, List.take_append_of_le_length bounded]

end Texts

section Rules

variable {far : Distance} {front : Text} (own name : Text)

theorem style_moved (length : far.offset = front.length) (block : FoundBlock) :
    (moveFound far block).style (front ++ own) name = moveStyle far.lines far.blocks (block.style own name) := by
  have text := slice_behind front own block.start block.stop
  have body : bodyOf (block.declarations.map (moveDeclaration far.lines)) = bodyOf block.declarations := by
    rw [bodyOf, List.map_map]
    rfl
  rw [← length] at text
  simp only [FoundBlock.style, moveFound, moveStyle, text, body]

theorem atBlock_moved (length : far.offset = front.length) (block : FoundAtBlock) :
    (moveAtBlock far block).atBlock (front ++ own) name = moveKept far.lines (block.atBlock own name) := by
  have text := slice_behind front own block.start block.stop
  rw [← length] at text
  simp only [FoundAtBlock.atBlock, moveAtBlock, moveKept, text]

mutual

theorem rules_moved (length : far.offset = front.length) (outer : List StyleBlock) (tree : BlockTree) :
    (moveTree far tree).rules (front ++ own) name (outer.map (moveStyle far.lines far.blocks)) =
      (tree.rules own name outer).map (moveRule far.lines far.blocks) := by
  cases tree with
  | node block children =>
    have inner := rulesOf_moved length (block.style own name :: outer) children
    rw [List.map_cons] at inner
    rw [moveTree, BlockTree.rules, BlockTree.rules, List.map_cons, style_moved own name length, inner]
    rfl

theorem rulesOf_moved (length : far.offset = front.length) (outer : List StyleBlock) (trees : List BlockTree) :
    rulesOf (front ++ own) name (outer.map (moveStyle far.lines far.blocks)) (moveTrees far trees) =
      (rulesOf own name outer trees).map (moveRule far.lines far.blocks) := by
  cases trees with
  | nil => rfl
  | cons tree rest => rw [moveTrees, rulesOf, rulesOf, List.map_append, rules_moved length, rulesOf_moved length]

end

end Rules

section Fronts

variable {front : Text} (own name : Text)

mutual

theorem rules_front (outer : List StyleBlock) (tree : BlockTree) (bounded : ∀ block ∈ blocksOf tree, block.stop ≤ front.length) :
    tree.rules (front ++ own) name outer = tree.rules front name outer := by
  cases tree with
  | node block children =>
    obtain ⟨first, later⟩ := List.forall_mem_cons.mp bounded
    have same : block.style (front ++ own) name = block.style front name := by
      rw [FoundBlock.style, slice_front first]
      rfl
    rw [BlockTree.rules, BlockTree.rules, same, rulesOf_front _ children later]

theorem rulesOf_front (outer : List StyleBlock) (trees : List BlockTree)
    (bounded : ∀ block ∈ blocksIn trees, block.stop ≤ front.length) :
    rulesOf (front ++ own) name outer trees = rulesOf front name outer trees := by
  cases trees with
  | nil => rfl
  | cons tree rest =>
    obtain ⟨first, later⟩ := List.forall_mem_append.mp bounded
    rw [rulesOf, rulesOf, rules_front outer tree first, rulesOf_front outer rest later]

end

end Fronts

section Seams

variable {lineComments : Bool} {reader : SheetReader} {front back : Text}

theorem run_here {after : SheetReader} {s : Text} (run : reader.run lineComments s = .ok after) :
    after.here = behind reader.here s := by
  refine run_keeps (P := fun moved rest => behind moved.here rest = behind reader.here s) ?_ rfl run
  intro moved after c rest same stepped
  obtain ⟨other, -, rfl⟩ := read_of_step stepped
  rw [← same, behind_cons]

theorem behind_feed (s : Text) : behind {} (s ++ ['\n']) = ⟨s.length + 1, s.count '\n' + 2, 1⟩ := by
  have offset := behind_offset {} s
  have line := behind_line {} s
  rw [behind_append, behind_cons, behind_nil, Place.after, if_pos (by decide), offset, line, Nat.zero_add, Nat.add_comm 1]

/-- What lies in front of a text behind a front that has been read and a line feed. -/
def distance (front : Text) (reader : SheetReader) : Distance :=
  ⟨front.length + 1, front.count '\n' + 1, reader.count⟩

def past (reader : SheetReader) : Past :=
  ⟨reader.level.blocks, reader.level.declarations, reader.keyframes, reader.properties⟩

section Reads

variable (run : SheetReader.run lineComments {} front = .ok reader) (ready : Ready reader) (outer : reader.outer = [])
  (idle : Idle lineComments back)

include run ready outer idle

/-- A reader that is behind blanks and comments, and a line feed, is a fresh one further on. -/
theorem carried_seam : ∃ moved, Carried (distance (front ++ back) reader) (past reader) {} moved ∧
    ∀ own, SheetReader.run lineComments {} (front ++ back ++ '\n' :: own) = moved.run lineComments own := by
  obtain ⟨gap, mode, blanks, between, onward⟩ := run_idle idle (.of_ready ready)
  have grounded := grounded_initial.run run
  have waiting := (Waiting.of_ready ready).waited back gap
  have here : behind (behind reader.here back) ['\n'] = ⟨(front ++ back).length + 1, (front ++ back).count '\n' + 2, 1⟩ := by
    rw [run_here run, ← behind_append, ← behind_append, ← List.append_assoc]
    exact behind_feed (front ++ back)
  have bottom := grounded.bottom
  rw [outer] at bottom
  have item : ∀ c ∈ '\n' :: (gap ++ []), isBlank c = true := by
    rw [List.append_nil]
    exact List.forall_mem_cons.mpr ⟨by decide, blanks⟩
  refine ⟨waited (waited reader back gap) ['\n'] ['\n'], ?_, ?_⟩
  · refine ⟨?_, waiting.plain, ?_, (Nat.zero_add _).symm, rfl, rfl⟩
    · rw [waited, waited, here, distance, movePlace, Nat.zero_add, Nat.add_comm 1]
    · simp only [waited, outer]
      exact ⟨bottom.1, bottom.2, rfl, rfl, ⟨'\n' :: (gap ++ []), item, by rw [ready.resting.item]; rfl⟩,
        ready.resting.itemStart, ready.resting.parens⟩
  · intro own
    rw [List.append_assoc, run_front grounded_initial run ready outer, onward, run_feed waiting between]

theorem read_front : (SheetReader.run lineComments {} (front ++ back)).bind SheetReader.finish =
    .ok ⟨reader.level.blocks.reverse, reader.keyframes.reverse, reader.properties.reverse, reader.level.declarations.reverse⟩ := by
  obtain ⟨gap, mode, blanks, between, onward⟩ := run_idle idle (.of_ready ready)
  have whole := onward []
  rw [List.append_nil] at whole
  rw [run_front grounded_initial run ready outer, whole]
  have itemStart := ready.resting.itemStart
  rcases between with rfl | rfl <;>
    simp [SheetReader.run, Except.bind, SheetReader.finish, waited, outer, Level.flush, Level.clear, itemStart]

end Reads

end Seams

section Sheets

variable {dialect : Dialect} {source name : Text} {sheet : Stylesheet}

/-- Everything behind the last item of the sheet is blank or a comment. -/
def EndsIdle (dialect : Dialect) (source : Text) : Prop :=
  ∃ front back, source = front ++ back ∧ Closed dialect.hasLineComments front ∧ Idle dialect.hasLineComments back

/-- A sheet with what stands in a later text behind its own. -/
def followed (sheet : Stylesheet) (lines orders : Nat) (later : Stylesheet) : Stylesheet :=
  { sheet with
    rules := sheet.rules ++ later.rules.map (moveRule lines orders)
    keyframes := sheet.keyframes ++ later.keyframes.map (moveKept lines)
    properties := sheet.properties ++ later.properties.map (moveKept lines)
    declarations := sheet.declarations ++ later.declarations.map (moveDeclaration lines) }

/-- What is found in a text behind another one: first what is found there, then what is found in the text alone. -/
theorem read_behind (ends : EndsIdle dialect source) : ∃ far past,
    far.offset = source.length + 1 ∧ far.lines = source.count '\n' + 1 ∧
    Findings.read dialect source = .ok ⟨past.blocks.reverse, past.keyframes.reverse, past.properties.reverse,
      past.declarations.reverse⟩ ∧
    (∀ block ∈ past.keyframes ++ past.properties, block.stop ≤ source.length) ∧
    ∀ own, Findings.read dialect (source ++ '\n' :: own) = moveOutcome far past (Findings.read dialect own) := by
  obtain ⟨front, back, rfl, ⟨reader, run, ready, outer⟩, idle⟩ := ends
  obtain ⟨moved, carried, onward⟩ := carried_seam run ready outer idle
  refine ⟨distance (front ++ back) reader, SheetConcatenation.past reader, rfl, rfl, ?_, ?_, ?_⟩
  · have read := read_front run ready outer idle
    unfold Findings.read
    cases whole : SheetReader.run dialect.hasLineComments {} (front ++ back) <;> rw [whole] at read <;> exact read
  · intro block member
    have bounded := (grounded_initial.run run).kept block member
    have offset := behind_offset ({} : SheetReader).here front
    rw [run_here run, offset] at bounded
    rw [List.length_append]
    exact Nat.le_trans bounded (by simp)
  · intro own
    exact (outcome_run (onward own)).trans (carried.outcome dialect.hasLineComments own)

theorem rules_behind {far : Distance} (offset : far.offset = source.length + 1) {first : List BlockTree}
    (bounded : ∀ block ∈ blocksIn first, block.stop ≤ source.length) (own : Text) (second : List BlockTree) :
    rulesOf (source ++ '\n' :: own) name [] (first ++ moveTrees far second) =
      rulesOf source name [] first ++ (rulesOf own name [] second).map (moveRule far.lines far.blocks) := by
  have length : far.offset = (source ++ ['\n']).length := by simp [offset]
  have moved := rulesOf_moved own name length [] second
  rw [List.append_assoc] at moved
  rw [rulesOf_append, rulesOf_front _ _ _ first bounded]
  exact congrArg _ moved

theorem blocks_behind {far : Distance} (offset : far.offset = source.length + 1) {first : List FoundAtBlock}
    (bounded : ∀ block ∈ first, block.stop ≤ source.length) (own : Text) (second : List FoundAtBlock) :
    (first ++ second.map (moveAtBlock far)).map (·.atBlock (source ++ '\n' :: own) name) =
      first.map (·.atBlock source name) ++ (second.map (·.atBlock own name)).map (moveKept far.lines) := by
  have length : far.offset = (source ++ ['\n']).length := by simp [offset]
  rw [List.map_append, List.map_map, List.map_map]
  congr 1
  · apply List.map_congr_left
    intro block member
    rw [FoundAtBlock.atBlock, slice_front (bounded block member)]
    rfl
  · apply List.map_congr_left
    intro block _
    have moved := atBlock_moved own name length block
    rw [List.append_assoc] at moved
    exact moved

/-- A text that is read behind a stylesheet that ends idle, on a line of its own, is read as it is alone: its rules,
blocks and declarations follow those of the sheet, on later lines and with higher numbers, or its fault is that of
the whole. -/
theorem parse_behind (dialect : Dialect) (name source : Text) (ends : EndsIdle dialect source) (sheet : Stylesheet)
    (parsed : Stylesheet.parse source name dialect = .ok sheet) :
    ∃ orders, ∀ own, Stylesheet.parse (source ++ '\n' :: own) name dialect =
      match Stylesheet.parse own name dialect with
      | .ok later => .ok (followed sheet (source.count '\n' + 1) orders later)
      | .error fault => .error (moveFault (source.count '\n' + 1) fault) := by
  obtain ⟨far, past, offset, lines, alone, bounded, behind⟩ := read_behind ends
  refine ⟨far.blocks, fun own => ?_⟩
  unfold Stylesheet.parse at parsed ⊢
  rw [alone] at parsed
  obtain rfl := Except.ok.inj parsed
  rw [behind]
  cases read : Findings.read dialect own with
  | error fault =>
    dsimp only [moveOutcome]
    rw [lines]
  | ok findings =>
    obtain ⟨room, atRules, fills⟩ := findings_fill alone
    have sits : ∀ block ∈ blocksIn past.blocks.reverse, block.stop ≤ source.length := by
      intro block member
      obtain ⟨inside, -⟩ := List.getElem?_eq_some_iff.mp (fills.fits.lies block member).sits.last
      omega
    obtain ⟨keyframes, properties⟩ := List.forall_mem_append.mp bounded
    have keyframes : ∀ block ∈ past.keyframes.reverse, block.stop ≤ source.length :=
      fun block member => keyframes block (List.mem_reverse.mp member)
    have properties : ∀ block ∈ past.properties.reverse, block.stop ≤ source.length :=
      fun block member => properties block (List.mem_reverse.mp member)
    dsimp only [moveOutcome, moveFindings, followed]
    rw [rules_behind offset sits, blocks_behind offset keyframes, blocks_behind offset properties, lines]

end Sheets

/-- A rule, an animation and a declaration, with comments of both kinds behind them. -/
def menuText : Text := ".menu \x7b color: red \x7d\n@keyframes spin \x7b to \x7b top: 0 \x7d \x7d\n$gap: 1px; /* \x7b */ // \x7b".toList

theorem menu_text_goes_on : EndsIdle .scss menuText ∧ ∃ sheet, Stylesheet.parse menuText "menu".toList .scss = .ok sheet ∧
    sheet.rules.length = 1 ∧ ∃ orders, ∀ own, Stylesheet.parse (menuText ++ '\n' :: own) "menu".toList .scss =
      match Stylesheet.parse own "menu".toList .scss with
      | .ok later => .ok (followed sheet 3 orders later)
      | .error fault => .error (moveFault 3 fault) := by
  have idle : EndsIdle .scss menuText := by
    have back : menuText.drop 65 =
        ' ' :: '/' :: '*' :: ([' ', '\x7b', ' '] ++ '*' :: '/' :: ' ' :: '/' :: '/' :: [' ', '\x7b']) := by decide +kernel
    refine ⟨menuText.take 65, menuText.drop 65, (List.take_append_drop 65 menuText).symm, by decide +kernel, ?_⟩
    rw [back]
    exact .blank (by decide) (.comment (by decide) (.blank (by decide) (.lastLine rfl (by decide))))
  have found : (Stylesheet.parse menuText "menu".toList .scss).toOption.map (·.rules.length) = some 1 := by decide +kernel
  cases parsed : Stylesheet.parse menuText "menu".toList .scss with
  | error fault =>
    rw [parsed] at found
    cases found
  | ok sheet =>
    rw [parsed] at found
    exact ⟨idle, sheet, rfl, Option.some.inj found, parse_behind .scss "menu".toList menuText idle sheet parsed⟩

end CascadeLens.Proofs.SheetConcatenation
