import CascadeLens.Proofs.SelectorLexing

/-! A selector as it is written is read as a list of branches that counts for what the selector
counts for in CSS. -/

namespace CascadeLens.Proofs.SelectorReading
open Text Selector SelectorWriting SelectorNames SelectorLexing

section Counting

theorem nothing_add (a : Counts) : ({} : Counts) + a = a := by
  obtain ⟨ids, classes, elements⟩ := a
  exact Counts.mk.injEq .. |>.mpr ⟨Nat.zero_add ids, Nat.zero_add classes, Nat.zero_add elements⟩

theorem vector_add (a b : Counts) : (a + b).vector = a.vector + b.vector := rfl

theorem order_vector (a b : Counts) : Specificity.order a.vector b.vector = .lt ↔ a < b := by
  have key : a < b ↔ a.key < b.key := Iff.rfl
  simp only [key, Counts.key, Prod.Lex.toLex_lt_toLex, Specificity.order, Counts.vector, Ordering.then_eq_lt,
    compare_lt_iff_lt, Std.compare_eq_iff_eq, Int.ofNat_lt, Int.natCast_inj, lt_self_iff_false, false_or, true_and]

theorem larger_vector (a b : Counts) : Specificity.larger a.vector b.vector = (max a b).vector := by
  unfold Specificity.larger
  by_cases less : a < b
  · simp [(order_vector a b).mpr less, max_eq_right less.le]
  · simp [mt (order_vector a b).mp less, max_eq_left (not_lt.mp less)]

theorem greatest_vector (first : Counts) (others : List Counts) :
    Specificity.greatest ((first :: others).map Counts.vector) = (others.foldl max first).vector := by
  induction others generalizing first with
  | nil => rfl
  | cons next others ih =>
    have onward := ih (max first next)
    simp only [List.map_cons, Specificity.greatest, List.foldl_cons] at onward ⊢
    rw [larger_vector, onward]

theorem specificity_add_assoc (a b c : Specificity) : a + b + c = a + (b + c) := by
  obtain ⟨i, j, k, l⟩ := a
  exact Specificity.mk.injEq .. |>.mpr ⟨Int.add_assoc .., Int.add_assoc .., Int.add_assoc .., Int.add_assoc ..⟩

theorem specificity_add_comm (a b : Specificity) : a + b = b + a := by
  change Specificity.mk _ _ _ _ = Specificity.mk _ _ _ _
  simp only [Int.add_comm]

theorem specificity_zero_add (a : Specificity) : .zero + a = a := by
  obtain ⟨i, j, k, l⟩ := a
  exact Specificity.mk.injEq .. |>.mpr ⟨Int.zero_add i, Int.zero_add j, Int.zero_add k, Int.zero_add l⟩

theorem specificity_add_zero (a : Specificity) : a + .zero = a := by
  obtain ⟨i, j, k, l⟩ := a
  exact Specificity.mk.injEq .. |>.mpr ⟨Int.add_zero i, Int.add_zero j, Int.add_zero k, Int.add_zero l⟩

theorem branchWeight_append (items others : Branch) :
    branchWeight (items ++ others) = branchWeight items + branchWeight others := by
  induction items with
  | nil => rw [List.nil_append, branchWeight, specificity_zero_add]
  | cons item rest ih => rw [List.cons_append, branchWeight, branchWeight, ih, specificity_add_assoc]

end Counting

/-- Tokens that push items onto the branch begun. -/
def Reads (tokens : List Token) (items : Branch) : Prop :=
  ∀ (list : Selector.Unfinished) (outer : List (ListFunction × Selector.Unfinished)),
    tokens.foldlM Reader.step? ⟨list, outer⟩ = some ⟨{ list with items := items.reverse ++ list.items }, outer⟩

theorem Reads.append {tokens more : List Token} {items others : Branch} (first : Reads tokens items)
    (second : Reads more others) : Reads (tokens ++ more) (items ++ others) := by
  intro list outer
  rw [List.foldlM_append, first]
  exact (second _ _).trans (by simp)

/-- Tokens that fill an empty list with branches. -/
def Fills (tokens : List Token) (branches : List Branch) : Prop :=
  ∀ (before : List Branch) (outer : List (ListFunction × Selector.Unfinished)), ∃ list : Selector.Unfinished,
    tokens.foldlM Reader.step? ⟨⟨[], before⟩, outer⟩ = some ⟨list, outer⟩ ∧
      list.finish? = some (before.reverse ++ branches)

theorem Reads.fills {tokens : List Token} {items : Branch} (reads : Reads tokens items) (filled : items ≠ []) :
    Fills tokens [items] := by
  intro before outer
  refine ⟨_, reads _ _, ?_⟩
  simp [Selector.Unfinished.finish?, Selector.Unfinished.endBranch?, filled]

theorem Reads.comma {tokens more : List Token} {items : Branch} {branches : List Branch} (reads : Reads tokens items)
    (filled : items ≠ []) (fills : Fills more branches) : Fills (tokens ++ .comma :: more) (items :: branches) := by
  intro before outer
  obtain ⟨list, later, finished⟩ := fills (items :: before) outer
  refine ⟨list, ?_, by simpa using finished⟩
  rw [List.foldlM_append, reads]
  simp [Reader.step?, Selector.Unfinished.endBranch?, filled, later]

theorem Fills.function {tokens : List Token} {branches : List Branch} (fills : Fills tokens branches)
    (function : ListFunction) : Reads (.enter function :: (tokens ++ [.close])) [.function function branches] := by
  intro list outer
  obtain ⟨inner, later, finished⟩ := fills [] ((function, list) :: outer)
  rw [List.foldlM_cons]
  simp only [Reader.step?, Option.bind_eq_bind, Option.bind_some]
  rw [List.foldlM_append, later]
  simp [Reader.step?, finished, Selector.Unfinished.push]

/-- Text that is read as items of a branch, and what they count for. -/
def Written (follows : Text → Prop) (s : Text) (items : Branch) (counts : Counts) : Prop :=
  ∃ tokens, Lexes follows s tokens ∧ Reads tokens items ∧ branchWeight items = counts.vector

section Pieces

variable {first second : Text → Prop} {s t : Text} {items others : Branch} {counts more : Counts}

theorem Written.append (before : Written first s items counts) (after : Written second t others more)
    (fits : ∀ rest, second rest → first (t ++ rest)) :
    Written second (s ++ t) (items ++ others) (counts + more) := by
  obtain ⟨tokens, lexes, reads, weight⟩ := before
  obtain ⟨tokens', lexes', reads', weight'⟩ := after
  refine ⟨tokens ++ tokens', lexes.append lexes' fits, reads.append reads', ?_⟩
  rw [branchWeight_append, weight, weight', vector_add]

theorem Written.weaken (written : Written first s items counts) (fits : ∀ rest, second rest → first rest) :
    Written second s items counts := by
  obtain ⟨tokens, lexes, reads⟩ := written
  exact ⟨tokens, fun rest follows => lexes rest (fits rest follows), reads⟩

theorem branchWeight_single (item : Item) : branchWeight [item] = item.weight := by
  rw [branchWeight, branchWeight, specificity_add_zero]

theorem written_simple {part : Simple} (lexes : Lexes first s [.simple part]) (weight : part.weight = counts.vector) :
    Written first s [.simple part] counts :=
  ⟨_, lexes, fun _ _ => rfl, by rw [branchWeight_single, Item.weight, weight]⟩

theorem written_gap (gap : Gap) : Written Solid gap.1 [] {} := ⟨_, lexes_gap gap, fun _ _ => rfl, rfl⟩

theorem written_sign (sign : Sign) : Written (fun _ => True) [sign.mark] [.combinator] {} :=
  ⟨_, lexes_sign sign, fun _ _ => rfl, rfl⟩

end Pieces

/-- Text that neither goes on with a name nor has anything in front to be left out. -/
def Settled (rest : Text) : Prop := Ends rest ∧ Solid rest

theorem mark_settled {c : Char} (mark : c ∈ ['.', '#', '[', ':', '>', '+', '~', ',', ')']) (rest : Text) :
    Settled (c :: rest) := by
  have all : ∀ c ∈ ['.', '#', '[', ':', '>', '+', '~', ',', ')'], stops c = true ∧ isBlank c = false ∧ c ≠ '/' := by
    decide
  constructor <;> intro d first <;> obtain rfl := Option.some.inj first
  · exact (all _ mark).1
  · exact (all _ mark).2

theorem sign_settled (sign : Sign) (rest : Text) : Settled (sign.mark :: rest) :=
  mark_settled (by cases sign <;> decide) rest

theorem piece_settled (piece : Piece) (rest : Text) : Settled (piece.text ++ rest) := by
  cases piece with
  | className name => exact mark_settled (by decide) _
  | idName name => exact mark_settled (by decide) _
  | bracket name test => exact mark_settled (by decide) _
  | pseudoClass name => exact mark_settled (by decide) _
  | pseudoElement name => exact mark_settled (by decide) _
  | pseudoFunction name arguments => exact mark_settled (by decide) _
  | elementFunction name arguments => exact mark_settled (by decide) _
  | listFunction function name named list => cases function <;> exact mark_settled (by decide) _

theorem compound_solid (compound : Compound) (rest : Text) : Solid (compound.text ++ rest) := by
  match compound with
  | .typeName name => exact identifier_solid name rest
  | .universal =>
    intro c first
    obtain rfl := Option.some.inj first
    decide
  | .piece piece => exact (piece_settled piece rest).2
  | .more front piece =>
    rw [Compound.text, List.append_assoc]
    exact compound_solid front _

theorem chain_solid (chain : Chain) (rest : Text) : Solid (chain.text ++ rest) := by
  cases chain with
  | last compound => exact compound_solid compound rest
  | joined compound join others =>
    rw [Chain.text, List.append_assoc, List.append_assoc]
    exact compound_solid compound _

theorem blank_stops {c : Char} (white : isBlank c = true ∧ isAscii c = true) : stops c = true :=
  @every_ascii (fun c => isBlank c = true → stops c = true) (by decide) c white.2 white.1

theorem gap_ends (gap : Gap) {rest : Text} (ends : gap.1 = [] → Ends rest) : Ends (gap.1 ++ rest) := by
  obtain ⟨s, white⟩ := gap
  cases s with
  | nil => exact ends rfl
  | cons c more =>
    intro d first
    obtain rfl := Option.some.inj first
    exact blank_stops (white c List.mem_cons_self)

theorem written_combinator (combinator : Combinator) : Written Solid combinator.text [.combinator] {} := by
  obtain ⟨before, sign, after⟩ := combinator
  have behind := (written_sign sign).append (written_gap after) fun _ _ => trivial
  exact (written_gap before).append behind fun rest _ => (sign_settled sign _).2

theorem written_join (join : Join) : ∃ items, Written Solid join.text items {} := by
  cases join with
  | descendant room apart => exact ⟨_, written_gap room⟩
  | combinator written => exact ⟨_, written_combinator written⟩

theorem written_lead (lead : Lead) : ∃ items, Written Solid lead.text items {} := by
  cases lead with
  | room room => exact ⟨_, written_gap room⟩
  | combinator written => exact ⟨_, written_combinator written⟩

theorem join_ends (join : Join) (rest : Text) : Ends (join.text ++ rest) := by
  cases join with
  | descendant room apart => exact gap_ends room fun empty => absurd empty apart
  | combinator written =>
    obtain ⟨before, sign, after⟩ := written
    rw [Join.text, Combinator.text, List.append_assoc]
    exact gap_ends before fun _ => (sign_settled sign _).1

section Constructors

def PieceWritten (piece : Piece) : Prop := ∃ item, Written Ends piece.text [item] piece.counts

def CompoundWritten (compound : Compound) : Prop :=
  ∃ items, items ≠ [] ∧ Written Ends compound.text items compound.counts

def ChainWritten (chain : Chain) : Prop := ∃ items, items ≠ [] ∧ Written Ends chain.text items chain.counts

def ListWritten (list : SelectorList) : Prop :=
  ∃ tokens branches first others, Lexes Settled list.text tokens ∧ Fills tokens branches ∧
    weights branches = (first :: others).map Counts.vector ∧ list.counts = others.foldl max first

theorem pseudoClass_weight (name : Identifier) :
    (Simple.pseudoClass name.1).weight = (Piece.pseudoClass name).counts.vector := by
  have legacy : isLegacyElement name.1 = true ↔ ∃ word ∈ legacyElements, lower name.1 = word.toList := by
    simp only [isLegacyElement, List.any_eq_true, beq_iff_eq]
    rfl
  rw [Simple.weight, Piece.counts]
  by_cases element : ∃ word ∈ legacyElements, lower name.1 = word.toList
  · rw [if_pos (legacy.mpr element), if_pos element]
    rfl
  · rw [if_neg (mt legacy.mp element), if_neg element]
    rfl

theorem simple_written (piece : Piece) (simple : ∀ function name named list, piece ≠ .listFunction function name named list) :
    PieceWritten piece := by
  cases piece with
  | className name => exact ⟨_, written_simple (lexes_className name) rfl⟩
  | idName name => exact ⟨_, written_simple (lexes_idName name) rfl⟩
  | bracket name test =>
    obtain ⟨content, lexes⟩ := lexes_attribute name test
    exact ⟨_, (written_simple lexes rfl).weaken fun _ _ => trivial⟩
  | pseudoClass name => exact ⟨_, written_simple (lexes_pseudoClass name) (pseudoClass_weight name)⟩
  | pseudoElement name => exact ⟨_, written_simple (lexes_pseudoElement name) rfl⟩
  | pseudoFunction name arguments =>
    obtain ⟨content, lexes⟩ := lexes_arguments (Or.inl rfl) name arguments
    have whole : (Piece.pseudoFunction name arguments).text = [':'] ++ (name.1.1 ++ ('(' :: arguments.text ++ [')'])) := by
      simp [Piece.text]
    rw [← whole] at lexes
    exact ⟨_, (written_simple lexes rfl).weaken fun _ _ => trivial⟩
  | elementFunction name arguments =>
    obtain ⟨content, lexes⟩ := lexes_arguments (Or.inr rfl) name arguments
    have whole : (Piece.elementFunction name arguments).text =
        [':', ':'] ++ (name.1.1 ++ ('(' :: arguments.text ++ [')'])) := by
      simp [Piece.text]
    rw [← whole] at lexes
    exact ⟨_, (written_simple lexes rfl).weaken fun _ _ => trivial⟩
  | listFunction function name named list => exact absurd rfl (simple function name named list)

theorem function_written {function : ListFunction} {name : Identifier} {named : Names function name} {list : SelectorList}
    (inside : ListWritten list) : PieceWritten (.listFunction function name named list) := by
  obtain ⟨tokens, branches, first, others, lexes, fills, counted, same⟩ := inside
  refine ⟨.function function branches, .enter function :: (tokens ++ [.close]), ?_, fills.function function, ?_⟩
  · have close := lexes.append lexes_close fun rest _ => mark_settled (by decide) rest
    have whole := (lexes_listFunction name named).append close fun _ _ => trivial
    have text : (Piece.listFunction function name named list).text =
        colonsOf function ++ (name.1 ++ ['(']) ++ (list.text ++ [')']) := by
      simp [Piece.text]
    rw [text]
    exact fun rest _ => whole rest trivial
  · rw [branchWeight_single, Item.weight, counted, greatest_vector, ← same]
    cases function <;> rfl

theorem joined_written {compound : Compound} {join : Join} {rest : Chain} (before : CompoundWritten compound)
    (after : ChainWritten rest) : ChainWritten (.joined compound join rest) := by
  obtain ⟨items, filled, first⟩ := before
  obtain ⟨others, _, later⟩ := after
  obtain ⟨between, gap⟩ := written_join join
  have front := first.append gap fun rest _ => join_ends join rest
  -- A blank may be left out here because no compound begins with one.
  have whole := front.append later fun rest' _ => chain_solid rest rest'
  exact ⟨items ++ between ++ others, by simp [filled], whole⟩

theorem more_written {compound : Compound} {piece : Piece} (before : CompoundWritten compound) (after : PieceWritten piece) :
    CompoundWritten (.more compound piece) := by
  obtain ⟨items, filled, first⟩ := before
  obtain ⟨item, later⟩ := after
  exact ⟨items ++ [item], by simp, first.append later fun rest _ => (piece_settled piece rest).1⟩

theorem universal_written : CompoundWritten .universal :=
  ⟨_, by simp, (written_simple lexes_universal rfl).weaken fun _ _ => trivial⟩

theorem branch_written (lead : Lead) {branch : Chain} (trail : Gap) (inside : ChainWritten branch) :
    ∃ items, items ≠ [] ∧ Written Settled (lead.text ++ branch.text ++ trail.1) items branch.counts := by
  obtain ⟨items, filled, written⟩ := inside
  obtain ⟨leading, before⟩ := written_lead lead
  have front := before.append written fun rest _ => chain_solid branch rest
  have behind : Written Settled trail.1 [] {} := (written_gap trail).weaken fun _ settled => settled.2
  have whole := front.append behind fun rest settled => gap_ends trail fun _ => settled.1
  rw [nothing_add] at whole
  exact ⟨leading ++ items ++ [], by simp [filled], whole⟩

theorem last_written (lead : Lead) {branch : Chain} (trail : Gap) (inside : ChainWritten branch) :
    ListWritten (.last lead branch trail) := by
  obtain ⟨items, filled, tokens, lexes, reads, weight⟩ := branch_written lead trail inside
  exact ⟨tokens, [items], branch.counts, [], lexes, reads.fills filled, by simp [weights, weight], rfl⟩

theorem comma_written (lead : Lead) {branch : Chain} (trail : Gap) {rest : SelectorList} (inside : ChainWritten branch)
    (later : ListWritten rest) : ListWritten (.more lead branch trail rest) := by
  obtain ⟨items, filled, tokens, lexes, reads, weight⟩ := branch_written lead trail inside
  obtain ⟨more, branches, first, others, lexes', fills, counted, same⟩ := later
  refine ⟨tokens ++ .comma :: more, items :: branches, branch.counts, first :: others, ?_, reads.comma filled fills, ?_, ?_⟩
  · have comma := lexes_comma.append lexes' fun _ _ => trivial
    have whole := lexes.append comma fun rest' _ => mark_settled (by decide) _
    exact whole
  · rw [weights, weight, counted]
    rfl
  · rw [SelectorList.counts, same, List.foldl_cons]
    exact (List.foldl_assoc ..).symm

mutual

theorem piece_written (piece : Piece) : PieceWritten piece := by
  match piece with
  | .listFunction function name named list => exact function_written (list_written list)
  | .className name => exact simple_written _ (by simp)
  | .idName name => exact simple_written _ (by simp)
  | .bracket name test => exact simple_written _ (by simp)
  | .pseudoClass name => exact simple_written _ (by simp)
  | .pseudoElement name => exact simple_written _ (by simp)
  | .pseudoFunction name arguments => exact simple_written _ (by simp)
  | .elementFunction name arguments => exact simple_written _ (by simp)

theorem compound_written (compound : Compound) : CompoundWritten compound := by
  match compound with
  | .typeName name => exact ⟨_, by simp, written_simple (lexes_typeName name) rfl⟩
  | .universal => exact universal_written
  | .piece piece =>
    obtain ⟨item, written⟩ := piece_written piece
    exact ⟨[item], by simp, written⟩
  | .more front piece => exact more_written (compound_written front) (piece_written piece)

theorem chain_written (chain : Chain) : ChainWritten chain := by
  match chain with
  | .last compound => exact compound_written compound
  | .joined compound join rest => exact joined_written (compound_written compound) (chain_written rest)

theorem list_written (list : SelectorList) : ListWritten list := by
  match list with
  | .last lead branch trail => exact last_written lead trail (chain_written branch)
  | .more lead branch trail rest => exact comma_written lead trail (chain_written branch) (list_written rest)

end

end Constructors

/-- No branch is blank: what follows it, were it a blank, would not come first. -/
theorem chain_not_blank (chain : Chain) : ∃ c ∈ chain.text, isBlank c = false := by
  have solid := chain_solid chain [' ']
  cases spelt : chain.text with
  | nil => exact absurd (solid ' ' (by rw [spelt]; rfl)).1 (by decide)
  | cons c rest => exact ⟨c, List.mem_cons_self, (solid c (by rw [spelt]; rfl)).1⟩

theorem text_not_blank (list : SelectorList) : blank list.text = false := by
  have inside : ∃ chain : Chain, ∀ c ∈ chain.text, c ∈ list.text := by
    cases list with
    | last lead branch trail => exact ⟨branch, fun c member => by simp [SelectorList.text, member]⟩
    | more lead branch trail rest => exact ⟨branch, fun c member => by simp [SelectorList.text, member]⟩
  obtain ⟨chain, among⟩ := inside
  obtain ⟨c, member, letter⟩ := chain_not_blank chain
  exact List.all_eq_false.mpr ⟨c, among c member, by simp [letter]⟩

/-- The text of every selector is read, and its specificity is what CSS says. -/
theorem specificity_text (list : SelectorList) :
    (parse? list.text).isSome = true ∧ specificity list.text = list.counts.vector := by
  obtain ⟨tokens, branches, first, others, lexes, fills, counted, same⟩ := list_written list
  have settled : Settled [] := ⟨fun _ found => (nomatch found), fun _ found => (nomatch found)⟩
  have lexed : tokens? list.text = some tokens := by
    have whole := lexes [] settled
    rw [List.append_nil, tokens?] at whole
    simpa using whole
  obtain ⟨inner, filled, finished⟩ := fills [] []
  have parsed : parse? list.text = some branches := by
    rw [parse?, text_not_blank, lexed]
    change ofTokens? tokens = some branches
    rw [ofTokens?, show ({} : Reader) = ⟨⟨[], []⟩, []⟩ from rfl, filled]
    exact finished
  refine ⟨by rw [parsed]; rfl, ?_⟩
  rw [specificity, parsed]
  change Specificity.greatest (weights branches) = list.counts.vector
  rw [counted, greatest_vector, same]

end CascadeLens.Proofs.SelectorReading
