import CascadeLens.Proofs.SheetRun
import Mathlib.Data.List.Forall2
import Mathlib.Data.List.Pairwise

/-! The rules of a stylesheet as spans of its text. Whatever a text that can be read looks like, its rules
stand in it in document order, each inside the rule it is nested in. -/

namespace CascadeLens.Proofs.SheetSpans
open Text SheetForest SheetRun

/-- The part of a text between two offsets. -/
structure Span where
  start : Nat
  stop : Nat
deriving Repr, DecidableEq

structure Span.Inside (inner around : Span) : Prop where
  start : around.start ≤ inner.start
  stop : inner.stop ≤ around.stop

/-- No character belongs to both spans. -/
def Span.Apart (a b : Span) : Prop := a.stop ≤ b.start ∨ b.stop ≤ a.start

def Span.Laminar (a b : Span) : Prop := a.Apart b ∨ a.Inside b ∨ b.Inside a

/-- A rule is what stands in a span of the source, and its lines are counted from there. -/
structure Covers (source : Text) (rule : Rule) (span : Span) : Prop where
  filled : span.start < span.stop
  bounded : span.stop ≤ source.length
  text : rule.text = slice source span.start span.stop
  first : ∃ c, rule.text.head? = some c ∧ isBlank c = false
  last : rule.text.getLast? = some '\x7d'
  startLine : rule.startLine = 1 + (source.take span.start).count '\n'
  endLine : rule.endLine = 1 + (source.take (span.stop - 1)).count '\n'

/-- The rules of a source in document order, with the span of each of them. -/
structure WellFormed (source : Text) (rules : List Rule) (spans : List Span) : Prop where
  covers : List.Forall₂ (Covers source) rules spans
  ordered : rules.Pairwise (fun a b => a.order < b.order)
  placed : spans.Pairwise (fun a b => a.start < b.start)
  laminar : ∀ a ∈ spans, ∀ b ∈ spans, a.Laminar b
  /-- A rule nested in another stands behind it in the list, and properly inside of it in the source. -/
  parents : ∀ (i : Nat) (rule parent : Rule), rules[i]? = some rule → rule.parent? = some parent →
    ∃ j < i, rules[j]? = some parent ∧ parent.atRules <+: rule.atRules ∧
      ∃ own around : Span, spans[i]? = some own ∧ spans[j]? = some around ∧ own.Inside around ∧ own ≠ around

mutual

/-- The rules of a tree, each with the block it comes from. -/
def tracedTree (source name : Text) (outer : List StyleBlock) : BlockTree → List (Rule × FoundBlock)
  | .node block children =>
    (⟨block.style source name, outer⟩, block) :: tracedIn source name (block.style source name :: outer) children

def tracedIn (source name : Text) (outer : List StyleBlock) : List BlockTree → List (Rule × FoundBlock)
  | [] => []
  | tree :: rest => tracedTree source name outer tree ++ tracedIn source name outer rest

end

section Traces

variable (source name : Text)

mutual

theorem traced_rules (outer : List StyleBlock) (tree : BlockTree) :
    (tracedTree source name outer tree).map Prod.fst = tree.rules source name outer := by
  cases tree with
  | node block children => rw [tracedTree, List.map_cons, traced_rulesOf, BlockTree.rules]

theorem traced_rulesOf (outer : List StyleBlock) (trees : List BlockTree) :
    (tracedIn source name outer trees).map Prod.fst = rulesOf source name outer trees := by
  cases trees with
  | nil => rfl
  | cons tree rest => rw [tracedIn, List.map_append, traced_rules, traced_rulesOf, rulesOf]

end

mutual

theorem traced_blocks (outer : List StyleBlock) (tree : BlockTree) :
    (tracedTree source name outer tree).map Prod.snd = blocksOf tree := by
  cases tree with
  | node block children => rw [tracedTree, List.map_cons, traced_blocksIn, blocksOf]

theorem traced_blocksIn (outer : List StyleBlock) (trees : List BlockTree) :
    (tracedIn source name outer trees).map Prod.snd = blocksIn trees := by
  cases trees with
  | nil => rfl
  | cons tree rest => rw [tracedIn, List.map_append, traced_blocks, traced_blocksIn, blocksIn]

end

/-- The rule of an entry says what the block says. -/
def Styled (entry : Rule × FoundBlock) : Prop := entry.1.toStyleBlock = entry.2.style source name

mutual

theorem tracedTree_styled (outer : List StyleBlock) (tree : BlockTree) :
    ∀ entry ∈ tracedTree source name outer tree, Styled source name entry := by
  cases tree with
  | node block children => exact List.forall_mem_cons.mpr ⟨rfl, tracedIn_styled _ children⟩

theorem tracedIn_styled (outer : List StyleBlock) (trees : List BlockTree) :
    ∀ entry ∈ tracedIn source name outer trees, Styled source name entry := by
  cases trees with
  | nil => exact nofun
  | cons tree rest => exact List.forall_mem_append.mpr ⟨tracedTree_styled outer tree, tracedIn_styled outer rest⟩

end

/-- What is not nested in the outermost entries is nested in an earlier one. -/
def Rooted (outer : List StyleBlock) (traced : List (Rule × FoundBlock)) : Prop :=
  ∀ front entry back, traced = front ++ entry :: back →
    entry.1.outer = outer ∨ ∃ above ∈ front, entry.1.parent? = some above.1 ∧ Surrounds above.2 entry.2

variable {source name}

theorem Rooted.append {outer : List StyleBlock} {first second : List (Rule × FoundBlock)}
    (before : Rooted outer first) (after : Rooted outer second) :
    Rooted outer (first ++ second) := by
  intro front entry back split
  obtain ⟨more, rfl, later⟩ | ⟨more, rfl, earlier⟩ := List.append_eq_append_iff.mp split
  · rcases after more entry back later with root | ⟨above, member, parent, surrounds⟩
    · exact Or.inl root
    · exact Or.inr ⟨above, List.mem_append_right _ member, parent, surrounds⟩
  · cases more with
    | nil => 
      rcases after [] entry back earlier.symm with root | ⟨above, member, -⟩
      · exact Or.inl root
      · cases member
    | cons own more =>
      obtain ⟨rfl, rfl⟩ := List.cons.inj earlier
      exact before front entry more rfl

mutual

theorem tracedTree_rooted (outer : List StyleBlock) (tree : BlockTree) (nested : NestedTree tree) :
    Rooted outer (tracedTree source name outer tree) := by
  cases tree with
  | node block children =>
    obtain ⟨surrounds, inside⟩ := nested
    have rooted := tracedIn_rooted (block.style source name :: outer) children inside
    intro front entry back split
    cases front with
    | nil =>
      obtain ⟨rfl, -⟩ := List.cons.inj split
      exact Or.inl rfl
    | cons own front =>
      obtain ⟨rfl, inner⟩ := List.cons.inj split
      refine Or.inr ?_
      rcases rooted front entry back inner with root | ⟨above, member, parent, surrounds⟩
      · have found : entry.2 ∈ blocksIn children := by
          rw [← traced_blocksIn source name (block.style source name :: outer) children, inner]
          exact List.mem_map_of_mem (List.mem_append_right _ List.mem_cons_self)
        exact ⟨_, List.mem_cons_self, by rw [Rule.parent?, root], surrounds entry.2 found⟩
      · exact ⟨above, List.mem_cons_of_mem _ member, parent, surrounds⟩

theorem tracedIn_rooted (outer : List StyleBlock) (trees : List BlockTree) (nested : NestedIn trees) :
    Rooted outer (tracedIn source name outer trees) := by
  cases trees with
  | nil =>
    intro front entry back split
    exact absurd split.symm (by simp [tracedIn])
  | cons tree rest =>
    obtain ⟨first, later⟩ := nested
    exact (tracedTree_rooted outer tree first).append (tracedIn_rooted outer rest later)

end

end Traces

section Spans

variable {source name : Text}

def spanOf (block : FoundBlock) : Span := ⟨block.start, block.stop⟩

/-- A block that sits in the source is a span of it. -/
theorem covers_of_sits {entry : Rule × FoundBlock} (styled : Styled source name entry) (sits : Sits source entry.2) :
    Covers source entry.1 (spanOf entry.2) := by
  obtain ⟨rule, block⟩ := entry
  obtain ⟨own, outer⟩ := rule
  obtain rfl : own = block.style source name := styled
  have filled : block.start < block.stop := sits.filled
  obtain ⟨c, first, filledFirst⟩ := sits.first
  have last := sits.last
  have bounded : block.stop - 1 < source.length := (List.getElem?_eq_some_iff.mp last).1
  refine ⟨filled, Nat.le_of_pred_lt bounded, rfl, ⟨c, ?_, filledFirst⟩, ?_, sits.startLine, sits.endLine⟩
  · rw [FoundBlock.style, slice, List.head?_take, if_neg (by omega), List.head?_drop, first]
  · rw [FoundBlock.style, slice, List.getLast?_take, if_neg (by omega), List.getElem?_drop]
    have place : block.start + (block.stop - block.start - 1) = block.stop - 1 := by omega
    rw [place, last, Option.some_or]

instance : Std.Symm Span.Laminar where
  symm a b laminar := by
    rcases laminar with apart | inside | inside
    · exact Or.inl apart.symm
    · exact Or.inr (Or.inr inside)
    · exact Or.inr (Or.inl inside)

theorem laminar_of_precedes {blocks : List FoundBlock} (ordered : blocks.Pairwise Precedes) :
    ∀ a ∈ blocks.map spanOf, ∀ b ∈ blocks.map spanOf, a.Laminar b := by
  have distinct : (blocks.map spanOf).Pairwise Span.Laminar := by
    refine List.pairwise_map.mpr (ordered.imp ?_)
    intro a b precedes
    rcases precedes.apart with apart | inside
    · exact Or.inl (Or.inl apart)
    · exact Or.inr (Or.inr ⟨Nat.le_of_lt precedes.start, inside⟩)
  have self : ∀ a ∈ blocks.map spanOf, a.Laminar a := fun a _ => Or.inr (Or.inl ⟨Nat.le_refl _, Nat.le_refl _⟩)
  intro a first b second
  exact distinct.forall_of_forall self first second

section Entries

variable {traced : List (Rule × FoundBlock)}

theorem ordered_of_precedes (styled : ∀ entry ∈ traced, Styled source name entry)
    (ordered : (traced.map Prod.snd).Pairwise Precedes) :
    (traced.map Prod.fst).Pairwise (fun a b => a.order < b.order) := by
  have number : ∀ entry ∈ traced, entry.1.order = entry.2.order := fun entry member =>
    congrArg StyleBlock.order (styled entry member)
  refine List.pairwise_map.mpr ((List.pairwise_map.mp ordered).imp_of_mem ?_)
  intro a b early late precedes
  rw [number a early, number b late]
  exact precedes.order

theorem parents_of_rooted (styled : ∀ entry ∈ traced, Styled source name entry) (rooted : Rooted [] traced)
    {i : Nat} {rule parent : Rule}
    (found : (traced.map Prod.fst)[i]? = some rule) (above : rule.parent? = some parent) :
    ∃ j < i, (traced.map Prod.fst)[j]? = some parent ∧ parent.atRules <+: rule.atRules ∧
      ∃ own around : Span, ((traced.map Prod.snd).map spanOf)[i]? = some own ∧
        ((traced.map Prod.snd).map spanOf)[j]? = some around ∧
        own.Inside around ∧ own ≠ around := by
  rw [List.getElem?_map, Option.map_eq_some_iff] at found
  obtain ⟨entry, place, rfl⟩ := found
  obtain ⟨inside, same⟩ := List.getElem?_eq_some_iff.mp place
  have split : traced = traced.take i ++ entry :: traced.drop (i + 1) := by
    rw [← same, List.getElem_cons_drop, List.take_append_drop]
  rcases rooted _ entry _ split with root | ⟨other, member, parents, surrounds⟩
  · rw [Rule.parent?, root] at above
    cases above
  · obtain ⟨j, before, at_⟩ := List.mem_take_iff_getElem.mp member
    have position : traced[j]? = some other := by rw [List.getElem?_eq_some_iff]; exact ⟨by omega, at_⟩
    obtain rfl : other.1 = parent := Option.some.inj (parents.symm.trans above)
    have known := styled other (List.mem_of_getElem? position)
    have own := styled entry (List.mem_of_getElem? place)
    refine ⟨j, by omega, by rw [List.getElem?_map, position, Option.map_some], ?_, spanOf entry.2, spanOf other.2,
      ?_, ?_, ?_, ?_⟩
    · rw [known, own]
      exact surrounds.atRules
    · rw [List.getElem?_map, List.getElem?_map, place, Option.map_some, Option.map_some]
    · rw [List.getElem?_map, List.getElem?_map, position, Option.map_some, Option.map_some]
    · exact ⟨Nat.le_of_lt surrounds.start, Nat.le_of_lt surrounds.stop⟩
    · intro same
      have level : entry.2.start = other.2.start := congrArg Span.start same
      exact absurd surrounds.start (by rw [level]; exact Nat.lt_irrefl _)

end Entries

/-- Blocks that lie in one room are the spans of their rules. -/
theorem wellFormed_of_fills {room : Room} {atRules : List AtRule} {trees : List BlockTree}
    (fills : SheetStack.Fills source room atRules trees) :
    WellFormed source (rulesOf source name [] trees) ((blocksIn trees).map spanOf) := by
  have ordered := fills.fits.ordered
  have sits : ∀ block ∈ blocksIn trees, Sits source block := fun block member => (fills.fits.lies block member).sits
  have rooted : Rooted [] (tracedIn source name [] trees) := tracedIn_rooted [] trees fills.nested
  have styled := tracedIn_styled source name [] trees
  rw [← traced_blocksIn source name [] trees] at ordered sits ⊢
  rw [← traced_rulesOf]
  constructor
  · rw [List.map_map, List.forall₂_map_left_iff, List.forall₂_map_right_iff, List.forall₂_same]
    intro entry member
    exact covers_of_sits (styled entry member) (sits entry.2 (List.mem_map_of_mem member))
  · exact ordered_of_precedes styled ordered
  · exact List.pairwise_map.mpr (ordered.imp Precedes.start)
  · exact laminar_of_precedes ordered
  · intro i rule parent found above
    exact parents_of_rooted styled rooted found above

/-- Whatever text is read as a stylesheet, its rules are spans of the text. -/
theorem parsed_wellFormed {sheet : Stylesheet} {dialect : Dialect}
    (parsed : Stylesheet.parse source name dialect = .ok sheet) :
    ∃ spans, WellFormed source sheet.rules spans := by
  unfold Stylesheet.parse at parsed
  split at parsed
  · cases parsed
  · next findings found =>
    cases parsed
    obtain ⟨room, atRules, fills⟩ := findings_fill found
    exact ⟨_, wellFormed_of_fills fills⟩

/-- Braces in a comment, in a string and behind a backslash, and a group in a rule. -/
def menuText : Text :=
  "/* \x7d */ .menu \x7b\n  color: red;\n  @media (gap: 1px) \x7b top: 0; &:hover \x7b left: 0 \x7d \x7d\n\x7d\n\\\x7d b[c='\x7b'] \x7b\n\x7d".toList

theorem menu_text_wellFormed : ∃ sheet, Stylesheet.parse menuText "menu".toList .css = .ok sheet ∧ sheet.rules.length = 4 ∧
    ∃ spans, WellFormed menuText sheet.rules spans := by
  have found : (Stylesheet.parse menuText "menu".toList .css).toOption.map (·.rules.length) = some 4 := by decide +kernel
  cases parsed : Stylesheet.parse menuText "menu".toList .css with
  | error fault =>
    rw [parsed] at found
    cases found
  | ok sheet =>
    rw [parsed] at found
    exact ⟨sheet, rfl, Option.some.inj found, parsed_wellFormed parsed⟩

end Spans

end CascadeLens.Proofs.SheetSpans
