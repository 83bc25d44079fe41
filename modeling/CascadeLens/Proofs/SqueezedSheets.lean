import CascadeLens.Proofs.SheetRelocation
import CascadeLens.Proofs.SqueezedText
import Mathlib.Data.List.Forall2

/-! What is found in a sheet, squeezed. Two readers whose items differ in blanks outside of strings find the same
blocks but for such blanks: the same selectors, declarations and at-rules, one inside the other in the same way. -/

namespace CascadeLens.Proofs.SqueezedSheets
open Text TextShape NestReading SheetSteps SheetSimulation SqueezedText

def squeezedDeclaration (declaration : RawDeclaration) : RawDeclaration := ⟨squeeze declaration.text, 0⟩

def squeezedFound (block : FoundBlock) : FoundBlock where
  selector := squeeze block.selector
  atRules := block.atRules.map squeezedAtRule
  start := 0
  stop := 0
  startLine := 0
  endLine := 0
  order := block.order
  declarations := block.declarations.map squeezedDeclaration

mutual

def squeezedTree : BlockTree → BlockTree
  | .node block children => .node (squeezedFound block) (squeezedTrees children)

def squeezedTrees : List BlockTree → List BlockTree
  | [] => []
  | tree :: rest => squeezedTree tree :: squeezedTrees rest

end

/-- Kinds of level that differ in blanks of selectors, and in what a block is kept for. -/
inductive Kinds : LevelKind → LevelKind → Prop
  | sheet : Kinds .sheet .sheet
  | style {selector selector' : Text} (order : Nat) (same : squeeze selector' = squeeze selector) :
    Kinds (.style selector order) (.style selector' order)
  | group : Kinds .group .group
  | nestedGroup (order : Nat) : Kinds (.nestedGroup order) (.nestedGroup order)
  | passed (depth : Nat) (keep keep' : Option AtRule) : Kinds (.passed depth keep) (.passed depth keep')

theorem Kinds.of_passed {depth : Nat} {keep : Option AtRule} {kind : LevelKind} (kinds : Kinds (.passed depth keep) kind) :
    ∃ keep', kind = .passed depth keep' := by
  cases kinds with
  | passed depth keep keep' => exact ⟨keep', rfl⟩

/-- Levels that differ in blanks and places, with items of which something less may be known. -/
structure Loose (items : Text → Text → Prop) (level other : Level) : Prop where
  kind : Kinds level.kind other.kind
  atRules : other.atRules.map squeezedAtRule = level.atRules.map squeezedAtRule
  declarations : other.declarations.map squeezedDeclaration = level.declarations.map squeezedDeclaration
  blocks : squeezedTrees other.blocks = squeezedTrees level.blocks
  item : level.isPassed = false → items level.item.reverse other.item.reverse
  itemStart : other.itemStart.isSome = level.itemStart.isSome
  parens : other.parens = level.parens

/-- Readers that have come to the same place in two texts, up to blanks. -/
structure Abreast (items : Text → Text → Prop) (reader other : SheetReader) : Prop where
  mode : Modes (fun _ _ => True) reader.mode other.mode
  level : Loose items reader.level other.level
  outer : List.Forall₂ (Loose Interchangeable) reader.outer other.outer
  count : other.count = reader.count

section Trees

theorem squeezedTrees_eq (trees : List BlockTree) : squeezedTrees trees = trees.map squeezedTree := by
  induction trees with
  | nil => rfl
  | cons tree rest ih => rw [squeezedTrees, ih, List.map_cons]

theorem squeezedTrees_append (first second : List BlockTree) :
    squeezedTrees (first ++ second) = squeezedTrees first ++ squeezedTrees second := by
  simp only [squeezedTrees_eq, List.map_append]

theorem squeezedTrees_reverse (trees : List BlockTree) : squeezedTrees trees.reverse = (squeezedTrees trees).reverse := by
  simp only [squeezedTrees_eq, List.map_reverse]

end Trees

section Levels

variable {items : Text → Text → Prop} {level other around around' : Level}

theorem Loose.isPassed (loose : Loose items level other) : other.isPassed = level.isPassed := by
  have kinds := loose.kind
  unfold Level.isPassed
  generalize level.kind = kind at kinds
  generalize other.kind = kind' at kinds
  cases kinds <;> rfl

theorem Loose.inStyle (loose : Loose items level other) : other.inStyle = level.inStyle := by
  have kinds := loose.kind
  unfold Level.inStyle
  generalize level.kind = kind at kinds
  generalize other.kind = kind' at kinds
  cases kinds <;> rfl

theorem Loose.keep (loose : Loose Interchangeable level other) (c : Char) :
    Loose Interchangeable (level.keep c) (other.keep c) := by
  refine { loose with item := fun read => ?_ }
  have longer := (loose.item read).snoc c
  rwa [← List.reverse_cons, ← List.reverse_cons] at longer

theorem Loose.begin (loose : Loose items level other) (here here' : Place) (c : Char) :
    Loose items (level.begin here c) (other.begin here' c) := by
  unfold Level.begin
  rw [← Option.not_isSome, ← Option.not_isSome, loose.itemStart]
  split
  · exact { loose with itemStart := rfl }
  · exact loose

theorem Loose.clear (loose : Loose items level other) : Loose Interchangeable level.clear other.clear :=
  { loose with item := fun _ => interchangeable_refl [], itemStart := rfl }

/-- The same declaration is put down, if any. -/
theorem Loose.flush (loose : Loose items level other) (read : level.isPassed = false)
    (alike : items level.item.reverse other.item.reverse → Alike level.item.reverse other.item.reverse) :
    Loose Interchangeable level.flush other.flush := by
  have same := alike (loose.item read)
  have head := same.head
  have text := same.trimmed
  have begun := loose.itemStart
  unfold Level.flush
  generalize level.itemStart = start at begun
  generalize other.itemStart = start' at begun
  generalize trim level.item.reverse = s at head text
  generalize trim other.item.reverse = t at head text
  cases start <;> cases start' <;> simp only [Option.isSome_none, Option.isSome_some, reduceCtorEq] at begun
  · exact loose.clear
  · cases s <;> cases t <;> simp only [List.head?_nil, List.head?_cons, reduceCtorEq] at head
    · exact loose.clear
    · refine { loose.clear with declarations := ?_ }
      rw [List.map_cons, List.map_cons, squeezedDeclaration, squeezedDeclaration, text]
      exact congrArg _ loose.declarations

theorem Loose.inner (loose : Loose items level other) (read : level.isPassed = false)
    (alike : items level.item.reverse other.item.reverse → Alike level.item.reverse other.item.reverse) (here here' : Place)
    (count : Nat) : Loose Interchangeable (level.inner here count) (other.inner here' count) := by
  have same := alike (loose.item read)
  have opened : ∀ {kind kind' atRules atRules' start start'}, Kinds kind kind' →
      atRules'.map squeezedAtRule = atRules.map squeezedAtRule →
        Loose Interchangeable { kind, atRules, start } { kind := kind', atRules := atRules', start := start' } :=
    fun kind atRules => ⟨kind, atRules, rfl, rfl, fun _ => interchangeable_refl [], rfl, rfl⟩
  have head := same.head
  by_cases begins : ∃ behind, trim level.item.reverse = '@' :: behind
  · obtain ⟨behind, prelude⟩ := begins
    rw [prelude] at head
    obtain ⟨behind', prelude'⟩ := List.head?_eq_some_iff.mp head.symm
    have rule := same.atRule prelude prelude'
    have name : (atRuleOf behind').name = (atRuleOf behind).name := (congrArg AtRule.name rule).symm
    have atRules : (other.atRules ++ [atRuleOf behind']).map squeezedAtRule =
        (level.atRules ++ [atRuleOf behind]).map squeezedAtRule := by
      rw [List.map_append, List.map_append, loose.atRules, List.map_singleton, List.map_singleton, rule]
    simp only [Level.inner, prelude, prelude', loose.inStyle, name]
    split_ifs
    · exact opened (.passed 0 _ _) loose.atRules
    · exact opened (.nestedGroup count) atRules
    · exact opened .group atRules
    · exact opened (.passed 0 _ _) loose.atRules
  · have begins' : ¬ ∃ behind', trim other.item.reverse = '@' :: behind' := by
      rintro ⟨behind', prelude'⟩
      rw [prelude'] at head
      exact begins ⟨_, (List.head?_eq_some_iff.mp head).choose_spec⟩
    unfold Level.inner
    split
    next behind prelude => exact absurd ⟨behind, prelude⟩ begins
    next =>
      split
      next behind' prelude' => exact absurd ⟨behind', prelude'⟩ begins'
      next =>
        refine opened (.style count ?_) loose.atRules
        rw [squeeze_spaced, squeeze_spaced, same.trimmed]

theorem Loose.found (loose : Loose items level other) {selector selector' : Text} (same : squeeze selector' = squeeze selector)
    (order : Nat) (here here' : Place) :
    squeezedFound (other.found selector' order here') = squeezedFound (level.found selector order here) := by
  unfold Level.found squeezedFound
  dsimp only
  rw [same, loose.atRules, List.map_reverse, List.map_reverse, loose.declarations]

theorem Loose.close (loose : Loose items level other) (outside : Loose Interchangeable around around') (here here' : Place) :
    Loose Interchangeable (level.close around here) (other.close around' here') := by
  have kinds := loose.kind
  have found : ∀ {selector selector'}, squeeze selector' = squeeze selector → ∀ order, squeezedFound
      (other.found selector' order here') = squeezedFound (level.found selector order here) :=
    fun same order => loose.found same order here here'
  unfold Level.close
  generalize level.kind = kind at kinds
  generalize other.kind = kind' at kinds
  cases kinds with
  | sheet | passed => exact outside
  | group =>
    refine { outside with declarations := ?_, blocks := ?_ }
    · rw [List.map_append, List.map_append, loose.declarations, outside.declarations]
    · rw [squeezedTrees_append, squeezedTrees_append, loose.blocks, outside.blocks]
  | style order same =>
    refine { outside with blocks := ?_ }
    simp only [squeezedTrees, squeezedTree, found same, squeezedTrees_reverse, loose.blocks, outside.blocks]
  | nestedGroup order =>
    have none : other.declarations.isEmpty = level.declarations.isEmpty := by
      rw [← List.isEmpty_map (f := squeezedDeclaration), loose.declarations, List.isEmpty_map]
    refine { outside with blocks := ?_ }
    dsimp only
    rw [none]
    split <;> simp only [squeezedTrees, squeezedTree, found rfl, squeezedTrees_append, loose.blocks, outside.blocks]

end Levels

section Readers

variable {items : Text → Text → Prop} {reader other : SheetReader}

theorem Abreast.at_level (abreast : Abreast items reader other) {more : Text → Text → Prop} {level level' : Level}
    (loose : Loose more level level') : Abreast more { reader with level } { other with level := level' } :=
  ⟨abreast.mode, loose, abreast.outer, abreast.count⟩

theorem Abreast.enter (abreast : Abreast items reader other) (read : reader.level.isPassed = false)
    (alike : items reader.level.item.reverse other.level.item.reverse →
      Alike reader.level.item.reverse other.level.item.reverse) : Abreast Interchangeable reader.enter other.enter := by
  have inner := abreast.level.inner read alike reader.here other.here reader.count
  unfold SheetReader.enter
  rw [abreast.count]
  refine ⟨abreast.mode, inner, .cons abreast.level.clear abreast.outer, ?_⟩
  dsimp only
  rw [inner.inStyle]

theorem Abreast.leave (abreast : Abreast items reader other) (read : reader.level.isPassed = false)
    (alike : items reader.level.item.reverse other.level.item.reverse →
      Alike reader.level.item.reverse other.level.item.reverse) :
    Outcomes (Abreast Interchangeable) (fun _ _ => True) reader.leave other.leave := by
  have outside := abreast.outer
  unfold SheetReader.leave
  generalize reader.outer = outer at outside
  generalize other.outer = outer' at outside
  cases outside with
  | nil => trivial
  | cons around more =>
    exact ⟨abreast.mode, (abreast.level.flush read alike).close around _ _, more, abreast.count⟩

theorem leavePassed_left {around : Level} {outer : List Level} (within : reader.outer = around :: outer) (keep : Option AtRule) :
    (reader.leavePassed keep).mode = reader.mode ∧ (reader.leavePassed keep).level = around ∧
      (reader.leavePassed keep).outer = outer ∧ (reader.leavePassed keep).count = reader.count := by
  unfold SheetReader.leavePassed
  rw [within]
  cases keep with
  | none => exact ⟨rfl, rfl, rfl, rfl⟩
  | some rule =>
    dsimp only
    split <;> exact ⟨rfl, rfl, rfl, rfl⟩

theorem Abreast.leavePassed (abreast : Abreast Interchangeable reader other) (keep keep' : Option AtRule) :
    Abreast Interchangeable (reader.leavePassed keep) (other.leavePassed keep') := by
  have outside := abreast.outer
  cases within : reader.outer with
  | nil =>
    rw [within] at outside
    have within' : other.outer = [] := List.forall₂_nil_left_iff.mp outside
    rw [SheetReader.leavePassed, SheetReader.leavePassed, within, within']
    exact abreast
  | cons around outer =>
    rw [within] at outside
    obtain ⟨around', outer', loose, more, within'⟩ := List.forall₂_cons_left_iff.mp outside
    obtain ⟨mode, level, rest, count⟩ := leavePassed_left within keep
    obtain ⟨mode', level', rest', count'⟩ := leavePassed_left within' keep'
    refine ⟨?_, ?_, ?_, ?_⟩
    · rw [mode, mode']
      exact abreast.mode
    · rw [level, level']
      exact loose
    · rw [rest, rest']
      exact more
    · rw [count, count']
      exact abreast.count

/-- Blanks make no difference to any of the single operations. -/
theorem abreast_lockstep : Lockstep (fun _ _ => True) (fun _ _ => True) (Abreast Interchangeable) where
  fault _ _ := trivial
  after _ _ := trivial
  here _ := trivial
  mode abreast := abreast.mode
  parens abreast := abreast.level.parens
  passed abreast depth keep kind := by
    have kinds := abreast.level.kind
    rw [kind] at kinds
    exact kinds.of_passed
  unpassed abreast read := abreast.level.isPassed.trans read
  move abreast _ _ _ := ⟨abreast.mode, abreast.level, abreast.outer, abreast.count⟩
  turn abreast _ _ modes := ⟨modes, abreast.level, abreast.outer, abreast.count⟩
  keep abreast c := abreast.at_level (abreast.level.keep c)
  count abreast parens := abreast.at_level { abreast.level with parens := rfl }
  note abreast c := abreast.at_level (abreast.level.begin _ _ c)
  sink abreast _ _ _ kind kind' depth := abreast.at_level
    { abreast.level with kind := .passed depth _ _, item := fun read => nomatch read }
  leavePassed abreast _ _ _ _ _ := abreast.leavePassed _ _
  flush abreast read := abreast.at_level (abreast.level.flush read Interchangeable.alike)
  enter abreast read := abreast.enter read Interchangeable.alike
  leave abreast read := abreast.leave read Interchangeable.alike

end Readers

end CascadeLens.Proofs.SqueezedSheets
