import CascadeLens.Proofs.SheetReading

/-! What a reader has found by offsets is what the items stand for. -/

namespace CascadeLens.Proofs.SheetFindings
open Text SheetWriting SheetSteps SheetPreludes SheetReading

def Stands (source : Text) (here : Place) (s : Text) : Prop := s <+: source.drop here.offset

section Places

variable {source s t : Text} {here : Place}

theorem Stands.slice (stands : Stands source here s) : slice source here.offset (here.offset + s.length) = s := by
  rw [Text.slice, Nat.add_sub_cancel_left]
  exact List.prefix_iff_eq_take.mp stands |>.symm

theorem Stands.left (stands : Stands source here (s ++ t)) : Stands source here s :=
  (List.prefix_append s t).trans stands

theorem Stands.right (stands : Stands source here (s ++ t)) : Stands source (behind here s) t := by
  obtain ⟨rest, whole⟩ := stands
  refine ⟨rest, ?_⟩
  rw [behind_offset, ← List.drop_drop, ← whole, List.append_assoc, List.drop_left]

theorem line_behind (same : '\n' ∉ s) : (behind here (s ++ ['\x7b'])).line = here.line := by
  simp [behind_line, List.count_eq_zero_of_not_mem same]

end Places

theorem declared_direct (atRules : List AtRule) (here : Place) (order : Nat) (items : List SheetItem) :
    (yieldOf atRules true here order items).declarations.map (·.text) = direct items := by
  induction items generalizing here order with
  | nil => rfl
  | cons item rest ih =>
    simp only [yieldOf, Yield.append, List.map_append, ih]
    cases item <;> simp [yield, direct]
    split <;> rfl

section Agreement

variable (source name : Text)

/-- What is found by offsets in a part of the source is what stands there. -/
structure Agrees (outer : List StyleBlock) (found : Yield) (findings : List Finding) : Prop where
  rules : rulesOf source name outer found.blocks = findings.filterMap Finding.rule?
  kept : found.kept.map (·.atBlock source name) = findings.filterMap Finding.block?
  declarations : (if outer.isEmpty then found.declarations else []) = findings.filterMap Finding.declaration?

variable {source name} {outer : List StyleBlock} {here : Place} {atRules : List AtRule} {order : Nat}

theorem rulesOf_append (first second : List BlockTree) :
    rulesOf source name outer (first ++ second) = rulesOf source name outer first ++ rulesOf source name outer second := by
  induction first with
  | nil => rfl
  | cons tree rest ih => rw [List.cons_append, rulesOf, rulesOf, ih, List.append_assoc]

theorem Agrees.append {first second : Yield} {found other : List Finding} (before : Agrees source name outer first found)
    (after : Agrees source name outer second other) : Agrees source name outer (first.append second) (found ++ other) where
  rules := by rw [Yield.append, rulesOf_append, before.rules, after.rules, List.filterMap_append]
  kept := by rw [Yield.append, List.map_append, before.kept, after.kept, List.filterMap_append]
  declarations := by
    rw [List.filterMap_append, ← before.declarations, ← after.declarations, Yield.append]
    split <;> rfl

theorem style_blockAt {items : List SheetItem} {inside : Place} {text : Text} (stands : Stands source here text)
    (selector : Text) :
    (blockAt here text selector atRules order (yieldOf atRules true inside (order + 1) items).declarations).style source name =
      ruleFor name atRules here.line order selector text items := by
  simp [blockAt, FoundBlock.style, ruleFor, bodyOf, declared_direct, stands.slice]

variable (source name)

/-- Wherever an item stands in the source, what is found in it is what it stands for. -/
def Faithful (item : SheetItem) : Prop :=
  ∀ {outer : List StyleBlock} {here : Place} {atRules : List AtRule} {order : Nat}, Stands source here item.text →
    Agrees source name outer (yield atRules (!outer.isEmpty) here order item)
      (item.findings name atRules outer here.line order)

def AllFaithful (items : List SheetItem) : Prop :=
  ∀ {outer : List StyleBlock} {here : Place} {atRules : List AtRule} {order : Nat}, Stands source here (textOf items) →
    Agrees source name outer (yieldOf atRules (!outer.isEmpty) here order items)
      (findingsIn name atRules outer here.line order items)

variable {source name}

theorem faithful_declaration (text : Text) : Faithful source name (.declaration text) := by
  intro outer here atRules order stands
  cases outer with
  | nil => exact ⟨rfl, rfl, rfl⟩
  | cons own outer => exact ⟨rfl, rfl, rfl⟩

theorem faithful_block (rule : AtRule) (contents : Text) : Faithful source name (.block rule contents) := by
  intro outer here atRules order stands
  simp only [yield, SheetItem.findings]
  split
  · refine ⟨rfl, ?_, by cases outer <;> rfl⟩
    simp [FoundAtBlock.atBlock, atBlockAt, stands.slice, known, Finding.block?]
  · exact ⟨rfl, rfl, by cases outer <;> rfl⟩

theorem faithful_style {selector : Text} {items : List SheetItem} (plain : Plain selector)
    (inside : AllFaithful source name items) : Faithful source name (.style selector items) := by
  intro outer here atRules order stands
  have stands' : Stands source here ((selector ++ ['\x7b']) ++ (textOf items ++ ['\x7d'])) := by
    simpa [SheetItem.text] using stands
  have line := @line_behind selector here (plain_no_newline plain)
  have agrees := @inside (ruleFor name atRules here.line order selector (SheetItem.style selector items).text items :: outer)
    _ atRules (order + 1) stands'.right.left
  rw [line] at agrees
  have own := @style_blockAt source name here atRules order items (behind here (selector ++ ['\x7b'])) _ stands selector
  refine ⟨?_, ?_, ?_⟩
  · simp only [yield, SheetItem.findings, rulesOf, BlockTree.rules, own, List.filterMap_cons, Finding.rule?, List.append_nil]
    rw [← agrees.rules]
    rfl
  · simp only [yield, SheetItem.findings]
    exact agrees.kept
  · simp only [SheetItem.findings, List.filterMap_cons, Finding.declaration?, ← agrees.declarations]
    cases outer <;> rfl

/-- A rule made for a group inside a style rule, unless it is left out. -/
theorem agrees_wrapper {block : FoundBlock} {own : StyleBlock} (outer : List StyleBlock)
    (same : block.style source name = own) (without : Bool) :
    Agrees source name outer ⟨if without then [] else [.node block []], [], []⟩
      (if without then [] else [.rule ⟨own, outer⟩]) := by
  cases without with
  | true => exact ⟨rfl, rfl, by cases outer <;> rfl⟩
  | false => exact ⟨by simp [rulesOf, BlockTree.rules, same, Finding.rule?], rfl, by cases outer <;> rfl⟩

theorem faithful_group {rule : AtRule} {items : List SheetItem} (spelled : Spelled rule)
    (inside : AllFaithful source name items) : Faithful source name (.group rule items) := by
  intro outer here atRules order stands
  have stands' : Stands source here ((opening rule ++ ['\x7b']) ++ (textOf items ++ ['\x7d'])) := by
    simpa [SheetItem.text] using stands
  have line := @line_behind (opening rule) here (opening_no_newline spelled)
  have agrees := fun order => @inside outer _ (atRules ++ [known rule]) order stands'.right.left
  rw [line] at agrees
  cases outer with
  | nil => exact agrees order
  | cons around outer =>
    have own := @style_blockAt source name here (atRules ++ [known rule]) order items
      (behind here (opening rule ++ ['\x7b'])) _ stands ['&']
    have same := declared_direct (atRules ++ [known rule]) (behind here (opening rule ++ ['\x7b'])) (order + 1) items
    obtain ⟨rules, kept, declarations⟩ := agrees (order + 1)
    have wrapper := agrees_wrapper (around :: outer) own (direct items).isEmpty
    rw [← same, List.isEmpty_map] at wrapper
    have nested : Agrees source name (around :: outer) ⟨_, _, []⟩ _ := ⟨rules, kept, declarations⟩
    simpa [yield, SheetItem.findings, ← same, Yield.append] using wrapper.append nested

theorem faithful_nil : AllFaithful source name [] := by
  intro outer here atRules order stands
  exact ⟨rfl, rfl, by cases outer <;> rfl⟩

theorem faithful_cons {item : SheetItem} {others : List SheetItem} (first : Faithful source name item)
    (later : AllFaithful source name others) : AllFaithful source name (item :: others) := by
  intro outer here atRules order stands
  have before := @first outer here atRules order stands.left
  have after := @later outer _ atRules (order + item.places (!outer.isEmpty)) stands.right
  rw [behind_line] at after
  exact before.append after

mutual

theorem faithful (item : SheetItem) (proper : item.Proper) : Faithful source name item := by
  cases item with
  | declaration text => exact faithful_declaration text
  | style selector items =>
    obtain ⟨plain, _, inside⟩ := proper
    exact faithful_style plain (faithful_all items inside)
  | group rule items =>
    obtain ⟨spelled, _, inside⟩ := proper
    exact faithful_group spelled (faithful_all items inside)
  | block rule contents => exact faithful_block rule contents

theorem faithful_all (items : List SheetItem) (proper : AllProper items) : AllFaithful source name items := by
  cases items with
  | nil => exact faithful_nil
  | cons item others =>
    obtain ⟨own, later⟩ := proper
    exact faithful_cons (faithful item own) (faithful_all others later)

end

end Agreement

theorem finish_ready {reader : SheetReader} (ready : Ready reader) (outermost : reader.outer = []) :
    reader.finish = .ok ⟨reader.level.blocks.reverse, reader.keyframes.reverse, reader.properties.reverse,
      reader.level.declarations.reverse⟩ := by
  have flushed : reader.level.flush = reader.level := ready.resting.flush reader.level.itemStart
  simp only [SheetReader.finish, ready.plain, outermost, flushed]

theorem read_of_run {dialect : Dialect} {source : Text} {reader : SheetReader}
    (ran : SheetReader.run dialect.hasLineComments {} source = .ok reader) (ready : Ready reader) (outermost : reader.outer = []) :
    Findings.read dialect source = .ok ⟨reader.level.blocks.reverse, reader.keyframes.reverse, reader.properties.reverse,
      reader.level.declarations.reverse⟩ := by
  rw [Findings.read, ran]
  exact finish_ready ready outermost

/-- The text of a forest is read as the stylesheet it spells, in every dialect. -/
theorem parse_text (items : List SheetItem) (proper : AllProper items) (name : Text) (dialect : Dialect) :
    Stylesheet.parse (textOf items) name dialect = .ok (sheetOf name dialect items) := by
  have ready : Ready {} := ⟨rfl, rfl, rfl, rfl, rfl⟩
  have agrees := @faithful_all (textOf items) name items proper [] {} [] 0 (List.prefix_refl _)
  have read := @reads_all dialect.hasLineComments items proper {} ready []
  rw [List.append_nil] at read
  have found : Findings.read dialect (textOf items) = (gain {} (textOf items) (placesOf false items)
      (yieldOf [] false {} 0 items)).finish := by
    rw [Findings.read, read]
    rfl
  rw [finish_ready (gain_ready ready _ _ _) rfl] at found
  rw [Stylesheet.parse, found, sheetOf, ← agrees.rules, ← agrees.kept, ← agrees.declarations]
  simp only [gain, List.append_nil, List.reverse_reverse, List.filter_map]
  rfl

/-- Groups in rules and rules in groups, among blocks of both kinds. -/
def menuSheet : List SheetItem :=
  [.declaration "$gap: 4px".toList,
    .style ".menu > a, .menu b".toList
      [.declaration "color: red".toList,
        .group ⟨"media".toList, "(min-width: 40em)".toList⟩
          [.style "&:hover".toList [.declaration "top: 0".toList], .declaration "color: blue".toList,
            .group ⟨"supports".toList, "(gap: 1px)".toList⟩ []],
        .declaration "left: 0".toList],
    .group ⟨"Layer".toList, "base".toList⟩
      [.declaration "$size: 2".toList, .style "b".toList [],
        .block ⟨"keyframes".toList, "spin".toList⟩ "from\x7btop: 0\x7d\nto\x7btop: 1px\x7d".toList],
    .block ⟨"property".toList, "--gap".toList⟩ "syntax: <length>;\n".toList,
    .block ⟨"font-face".toList, []⟩ "font-family: menu".toList,
    .style "a".toList []]

theorem menu_sheet_parses : AllProper menuSheet ∧
    Stylesheet.parse (textOf menuSheet) "menu".toList .scss = .ok (sheetOf "menu".toList .scss menuSheet) := by
  have proper : AllProper menuSheet := by decide
  exact ⟨proper, parse_text menuSheet proper "menu".toList .scss⟩

example : (sheetOf "menu".toList .scss menuSheet).rules.map (fun rule => (rule.selector, rule.body, rule.order)) =
    [(".menu > a, .menu b".toList, "color: red; left: 0".toList, 0), (['&'], "color: blue".toList, 1),
      ("&:hover".toList, "top: 0".toList, 2), (['b'], [], 4), (['a'], [], 5)] := by decide

end CascadeLens.Proofs.SheetFindings
