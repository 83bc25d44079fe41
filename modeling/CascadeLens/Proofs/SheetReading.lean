import CascadeLens.Proofs.SheetPreludes

/-! What a reader has found behind the text of items, by offsets. -/

namespace CascadeLens.Proofs.SheetReading
open Text TextShape SheetWriting SheetSteps SheetPreludes

/-- What is found in part of a sheet, in the order of the text. Kept blocks of both kinds stand together. -/
structure Yield where
  blocks : List BlockTree := []
  kept : List FoundAtBlock := []
  declarations : List RawDeclaration := []

def Yield.append (first second : Yield) : Yield :=
  ⟨first.blocks ++ second.blocks, first.kept ++ second.kept, first.declarations ++ second.declarations⟩

def blockAt (here : Place) (text selector : Text) (atRules : List AtRule) (order : Nat)
    (declarations : List RawDeclaration) : FoundBlock where
  selector := selector
  atRules := atRules
  start := here.offset
  stop := here.offset + text.length
  startLine := here.line
  endLine := here.line + text.count '\n'
  order := order
  declarations := declarations

def atBlockAt (here : Place) (text : Text) (rule : AtRule) (atRules : List AtRule) : FoundAtBlock where
  name := rule.name
  params := rule.params
  atRules := atRules
  start := here.offset
  stop := here.offset + text.length
  startLine := here.line
  endLine := here.line + text.count '\n'

mutual

/-- What is found in an item that begins here, given the place of the next rule in the order. -/
def yield (atRules : List AtRule) (inStyle : Bool) (here : Place) (order : Nat) : SheetItem → Yield
  | .declaration text => { declarations := [⟨text, here.line⟩] }
  | .style selector items =>
    let found := yieldOf atRules true (behind here (selector ++ ['\x7b'])) (order + 1) items
    let own := blockAt here (SheetItem.style selector items).text selector atRules order found.declarations
    { blocks := [.node own found.blocks], kept := found.kept }
  | .group rule items =>
    let atRules := atRules ++ [known rule]
    let inside := behind here (opening rule ++ ['\x7b'])
    if inStyle then
      let found := yieldOf atRules true inside (order + 1) items
      let own := blockAt here (SheetItem.group rule items).text ['&'] atRules order found.declarations
      { blocks := (if found.declarations.isEmpty then [] else [.node own []]) ++ found.blocks, kept := found.kept }
    else yieldOf atRules false inside order items
  | .block rule contents =>
    if Named ("property" :: keyframesNames) rule then
      { kept := [atBlockAt here (SheetItem.block rule contents).text (known rule) atRules] }
    else {}

def yieldOf (atRules : List AtRule) (inStyle : Bool) (here : Place) (order : Nat) : List SheetItem → Yield
  | [] => {}
  | item :: rest =>
    (yield atRules inStyle here order item).append
      (yieldOf atRules inStyle (behind here item.text) (order + item.places inStyle) rest)

end

/-- The reader behind text with nothing begun, and what was found in the text. -/
def gain (reader : SheetReader) (text : Text) (places : Nat) (found : Yield) : SheetReader :=
  { reader with
    here := behind reader.here text
    count := reader.count + places
    keyframes := (found.kept.filter (·.name != "property".toList)).reverse ++ reader.keyframes
    properties := (found.kept.filter (·.name == "property".toList)).reverse ++ reader.properties
    level := { reader.level with
      blocks := found.blocks.reverse ++ reader.level.blocks
      declarations := found.declarations.reverse ++ reader.level.declarations } }

theorem gain_gain (reader : SheetReader) (first second : Text) (places more : Nat) (found other : Yield) :
    gain (gain reader first places found) second more other =
      gain reader (first ++ second) (places + more) (found.append other) := by
  simp [gain, behind_append, Yield.append, Nat.add_assoc]

theorem gain_ready {reader : SheetReader} (ready : Ready reader) (text : Text) (places : Nat) (found : Yield) :
    Ready (gain reader text places found) :=
  ⟨ready.plain, ready.resting.read, ready.resting.item, ready.resting.itemStart, ready.resting.parens⟩

theorem stop_offset (here : Place) (s : Text) : (behind here s).offset + 1 = here.offset + (s ++ ['\x7d']).length := by
  simp [behind_offset, Nat.add_assoc]

theorem stop_line (here : Place) (s : Text) : (behind here s).line = here.line + (s ++ ['\x7d']).count '\n' := by
  simp [behind_line]

theorem found_at (level : Level) (here : Place) (s selector : Text) (order : Nat) (start : level.start = here) :
    level.found selector order (behind here s) =
      blockAt here (s ++ ['\x7d']) selector level.atRules order level.declarations.reverse := by
  rw [Level.found, start, stop_offset, stop_line, blockAt]

theorem opened_eq {reader : SheetReader} {prelude : Text} {level : Level}
    (inner : (holding reader.level reader.here prelude).inner (behind reader.here prelude) reader.count = level) :
    opened reader prelude = { reader with
      here := behind reader.here (prelude ++ ['\x7b'])
      level
      outer := reader.level :: reader.outer
      count := if level.inStyle then reader.count + 1 else reader.count } := by
  rw [← inner]
  rfl

section Braces

variable {lineComments : Bool} {reader : SheetReader} {prelude contents : Text}

theorem run_braces {places : Nat} {found : Yield} (ready : Ready reader) (kept : Kept prelude)
    (resting : Resting (opened reader prelude).level)
    (inside : ∀ rest, (opened reader prelude).run lineComments (contents ++ rest) =
      (gain (opened reader prelude) contents places found).run lineComments rest) (rest : Text) :
    reader.run lineComments (prelude ++ '\x7b' :: contents ++ ['\x7d'] ++ rest) =
      { gain (opened reader prelude) contents places found with
        here := behind reader.here (prelude ++ '\x7b' :: contents ++ ['\x7d'])
        level := (gain (opened reader prelude) contents places found).level.close reader.level
          (behind reader.here (prelude ++ '\x7b' :: contents))
        outer := reader.outer }.run lineComments rest := by
  have inner : Ready (opened reader prelude) := ⟨ready.plain, resting⟩
  have start := @run_opening lineComments reader prelude ready kept (contents ++ '\x7d' :: rest)
  have stop := @run_closing lineComments _ reader.level reader.outer (gain_ready inner contents places found) rfl rest
  have whole : prelude ++ '\x7b' :: contents ++ ['\x7d'] ++ rest = prelude ++ '\x7b' :: (contents ++ '\x7d' :: rest) := by
    simp
  rw [whole, start, inside, stop]
  simp [gain, opened, behind_append]

private theorem leavePassed_found {around : Level} {outer : List Level} {here : Place} {text : Text}
    (within : reader.outer = around :: outer) (start : reader.level.start = here)
    (offset : reader.here.offset + 1 = here.offset + text.length)
    (line : reader.here.line = here.line + text.count '\n') (keep : Option AtRule) :
    let found := keep.toList.map (atBlockAt here text · around.atRules)
    reader.leavePassed keep = { reader with
      level := around
      outer
      keyframes := (found.filter (·.name != "property".toList)).reverse ++ reader.keyframes
      properties := (found.filter (·.name == "property".toList)).reverse ++ reader.properties } := by
  cases keep with
  | none => simp [SheetReader.leavePassed, within]
  | some rule =>
    simp only [SheetReader.leavePassed, within, start, offset, line, Option.toList_some, List.map_cons, List.map_nil]
    generalize "property".toList = word
    by_cases same : rule.name = word
    · simp [atBlockAt, same]
    · simp [atBlockAt, same]

/-- A block that is passed over, and kept if it is for an at-rule. -/
theorem run_block {keep : Option AtRule} (ready : Ready reader) (kept : Kept prelude)
    (passed : (opened reader prelude).level =
      { kind := .passed 0 keep, atRules := reader.level.atRules, start := reader.here })
    (bare : ∀ c ∈ contents, c ∉ masking) (balance : Paired '\x7b' '\x7d' contents) (rest : Text) :
    reader.run lineComments (prelude ++ '\x7b' :: contents ++ ['\x7d'] ++ rest) =
      (gain reader (prelude ++ '\x7b' :: contents ++ ['\x7d']) 0
        { kept := keep.toList.map (atBlockAt reader.here (prelude ++ '\x7b' :: contents ++ ['\x7d']) ·
            reader.level.atRules) }).run lineComments rest := by
  have kind : (opened reader prelude).level.kind = .passed 0 keep := by rw [passed]
  obtain ⟨level, counted, same, inside⟩ :=
    @run_passed lineComments (opened reader prelude) contents 0 0 keep ready.plain kind bare balance ('\x7d' :: rest)
  have stepped := @step_passed lineComments
    { opened reader prelude with here := behind (opened reader prelude).here contents, level } '\x7d' rest.head? 0 keep
    ready.plain counted (by decide)
  have stop : behind (opened reader prelude).here contents = behind reader.here (prelude ++ '\x7b' :: contents) := by
    simp [opened, behind_append]
  have count : (opened reader prelude).count = reader.count := by
    have silent : (opened reader prelude).level.inStyle = false := by
      rw [passed]
      rfl
    exact if_neg (by simpa [opened] using silent)
  have start : level.start = reader.here := same.trans (by rw [passed])
  have left := @leavePassed_found
    (noting { opened reader prelude with here := behind (opened reader prelude).here contents, level } '\x7d')
    reader.level reader.outer reader.here (prelude ++ '\x7b' :: contents ++ ['\x7d']) rfl
    ((noted_start level _ _).trans start) (by simp only [noting, stop, stop_offset])
    (by simp only [noting, stop, stop_line]) keep
  have whole : prelude ++ '\x7b' :: contents ++ ['\x7d'] ++ rest = prelude ++ '\x7b' :: (contents ++ '\x7d' :: rest) := by
    simp
  have passes : ∀ reader : SheetReader, reader.passOver 0 keep '\x7d' = reader.leavePassed keep := fun _ => rfl
  rw [whole, run_opening ready kept, inside, run_step stepped, passes, left]
  simp only [gain, stop, noting, count, behind_append, behind_cons, behind_nil]
  rfl

end Braces

section Items

variable (lineComments : Bool)

def Reads (item : SheetItem) : Prop :=
  ∀ {reader : SheetReader}, Ready reader → ∀ rest, reader.run lineComments (item.text ++ rest) =
    (gain reader item.text (item.places reader.level.inStyle)
      (yield reader.level.atRules reader.level.inStyle reader.here reader.count item)).run lineComments rest

def ReadsAll (items : List SheetItem) : Prop :=
  ∀ {reader : SheetReader}, Ready reader → ∀ rest, reader.run lineComments (textOf items ++ rest) =
    (gain reader (textOf items) (placesOf reader.level.inStyle items)
      (yieldOf reader.level.atRules reader.level.inStyle reader.here reader.count items)).run lineComments rest

variable {lineComments}

theorem reads_declaration {text : Text} (plain : Plain text) : Reads lineComments (.declaration text) := by
  intro reader ready rest
  rw [SheetItem.text, List.append_assoc, List.singleton_append, run_declaration ready (plain_kept plain)]
  simp [gain, yield, SheetItem.places]

theorem reads_block {rule : AtRule} {contents : Text} (spelled : Spelled rule) (other : ¬ Named groupNames rule)
    (bare : ∀ c ∈ contents, c ∉ masking) (balance : Paired '\x7b' '\x7d' contents) :
    Reads lineComments (.block rule contents) := by
  intro reader ready rest
  have passed := @inner_block rule reader.level reader.here (behind reader.here (opening rule)) reader.count spelled other
  rw [SheetItem.text, run_block ready (opening_kept spelled) passed bare balance, SheetItem.places, yield]
  congr 2
  split <;> rfl

theorem reads_style {selector : Text} {items : List SheetItem} (plain : Plain selector) (word : selector.head? ≠ some '@')
    (inside : ReadsAll lineComments items) : Reads lineComments (.style selector items) := by
  intro reader ready rest
  have opens := opened_eq (@inner_style reader.level reader.here (behind reader.here selector) reader.count selector plain word)
  have resting : Resting (opened reader selector).level := by
    rw [opens]
    exact ⟨rfl, rfl, rfl, rfl⟩
  have inner : Ready (opened reader selector) := ⟨ready.plain, resting⟩
  rw [SheetItem.text, run_braces ready (plain_kept plain) resting (inside inner)]
  congr 1
  rw [opens]
  simp [gain, SheetItem.places, yield, Level.inStyle, Level.close, found_at, SheetItem.text, Nat.add_assoc]

theorem reads_group {rule : AtRule} {items : List SheetItem} (spelled : Spelled rule) (group : Named groupNames rule)
    (inside : ReadsAll lineComments items) : Reads lineComments (.group rule items) := by
  intro reader ready rest
  have opens := opened_eq (@inner_group rule reader.level reader.here (behind reader.here (opening rule)) reader.count spelled group)
  have resting : Resting (opened reader (opening rule)).level := by
    rw [opens]
    refine ⟨?_, rfl, rfl, rfl⟩
    simp only [Level.isPassed]
    cases reader.level.inStyle <;> rfl
  have inner : Ready (opened reader (opening rule)) := ⟨ready.plain, resting⟩
  rw [SheetItem.text, run_braces ready (opening_kept spelled) resting (inside inner)]
  congr 1
  rw [opens]
  -- Only inside a style rule does a group take a place of its own and keep its declarations.
  generalize reader.level.inStyle = style
  cases style with
  | false => simp [gain, SheetItem.places, yield, Level.inStyle, Level.close]
  | true =>
    simp [gain, SheetItem.places, yield, Level.inStyle, Level.close, found_at, SheetItem.text, Nat.add_assoc]
    split <;> rfl

theorem reads_nil : ReadsAll lineComments [] := by
  intro reader ready rest
  rfl

theorem reads_cons {item : SheetItem} {others : List SheetItem} (first : Reads lineComments item)
    (later : ReadsAll lineComments others) : ReadsAll lineComments (item :: others) := by
  intro reader ready rest
  rw [textOf, List.append_assoc, first ready, later (gain_ready ready _ _ _), gain_gain]
  rfl

mutual

theorem reads (item : SheetItem) (proper : item.Proper) : Reads lineComments item := by
  cases item with
  | declaration text => exact reads_declaration proper
  | style selector items =>
    obtain ⟨plain, word, inside⟩ := proper
    exact reads_style plain word (reads_all items inside)
  | group rule items =>
    obtain ⟨spelled, group, inside⟩ := proper
    exact reads_group spelled group (reads_all items inside)
  | block rule contents =>
    obtain ⟨spelled, other, bare, balance⟩ := proper
    exact reads_block spelled other bare balance

theorem reads_all (items : List SheetItem) (proper : AllProper items) : ReadsAll lineComments items := by
  cases items with
  | nil => exact reads_nil
  | cons item others =>
    obtain ⟨own, later⟩ := proper
    exact reads_cons (reads item own) (reads_all others later)

end

end Items

end CascadeLens.Proofs.SheetReading
