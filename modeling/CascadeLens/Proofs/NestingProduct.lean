import CascadeLens.Proofs.NestReading
import CascadeLens.Proofs.ResolverMemo
import Mathlib.Algebra.BigOperators.Group.List.Basic
import Mathlib.Data.List.Induction

/-! Nested rules stand for one selector for each way to choose a branch of every rule of the chain.
A branch that leaves nothing open can be put into any other, at any depth of brackets, without making
or hiding a comma between branches. -/

namespace CascadeLens.Proofs.NestingProduct
open Text TextShape NestReading ResolverMemo

/-- All ways to take one member of each list, in lexicographic order: the first list is the most
significant. -/
def tuples {α : Type} : List (List α) → List (List α)
  | [] => [[]]
  | first :: rest => first.flatMap fun item => (tuples rest).map (item :: ·)

/-- A branch with a text in the place of every sign for the parent. -/
def filled (outer branch : Text) : Text := branch.flatMap fun c => if c = '&' then outer else [c]

/-- A branch under one of the rule around it. -/
def under (outer branch : Text) : Text := if '&' ∈ branch then filled outer branch else outer ++ ' ' :: branch

/-- The selector that branches spell, the outermost one first. -/
def tupleText : List Text → Text
  | [] => []
  | first :: rest => rest.foldl under first

/-- The rules around a rule and the rule itself, outermost first. -/
def chain (rule : Rule) : List StyleBlock := (rule.toStyleBlock :: rule.outer).reverse

/-- The branches to choose from. Outside of all rules the sign for the parent is the scoping root. -/
def choices : List StyleBlock → List (List Text)
  | [] => []
  | root :: nested => (branches root.selector).map (filled ":scope".toList) :: nested.map (branches ·.selector)

/-- A sign for the parent stands outside quotes and escapes. -/
def Visible (nest : Nest) (c : Char) : Prop := c = '&' → Bare nest

instance (nest : Nest) (c : Char) : Decidable (Visible nest c) := inferInstanceAs (Decidable (_ → _))

/-- A branch that ends outside brackets, quotes and escapes, closes no bracket but its own, and does
not hide a sign for the parent. -/
structure Closed (branch : Text) : Prop where
  sheltered : Along Sheltered {} branch
  visible : Along Visible {} branch
  ends : (Nest.read {} branch).outside = true

instance (branch : Text) : Decidable (Closed branch) :=
  decidable_of_iff (Along Sheltered {} branch ∧ Along Visible {} branch ∧ (Nest.read {} branch).outside = true)
    ⟨fun ⟨sheltered, visible, ends⟩ => ⟨sheltered, visible, ends⟩,
      fun ⟨sheltered, visible, ends⟩ => ⟨sheltered, visible, ends⟩⟩

section Tuples

variable {α : Type}

theorem tuples_append_singleton (lists : List (List α)) (last : List α) :
    tuples (lists ++ [last]) = (tuples lists).flatMap fun tuple => last.map fun item => tuple ++ [item] := by
  induction lists with
  | nil => simp [tuples, List.map_eq_flatMap]
  | cons first rest ih =>
    simp only [List.cons_append, tuples, ih, List.flatMap_assoc, List.map_flatMap, List.flatMap_map, List.map_map]
    rfl

theorem length_tuples (lists : List (List α)) : (tuples lists).length = (lists.map List.length).prod := by
  induction lists with
  | nil => rfl
  | cons first rest ih => simp [tuples, List.length_flatMap, ih]

theorem tupleText_append_singleton {tuple : List Text} (inhabited : tuple ≠ []) (branch : Text) :
    tupleText (tuple ++ [branch]) = under (tupleText tuple) branch := by
  obtain ⟨first, rest, rfl⟩ := List.exists_cons_of_ne_nil inhabited
  simp [tupleText]

theorem tuple_inhabited {first : List α} {rest : List (List α)} {tuple : List α} (member : tuple ∈ tuples (first :: rest)) :
    tuple ≠ [] := by
  obtain ⟨item, _, inside⟩ := List.mem_flatMap.mp member
  obtain ⟨others, _, rfl⟩ := List.mem_map.mp inside
  exact List.cons_ne_nil _ _

end Tuples

section Filling

variable {outer branch : Text}

theorem filled_append (outer s t : Text) : filled outer (s ++ t) = filled outer s ++ filled outer t := List.flatMap_append

theorem filled_eq_self (absent : '&' ∉ branch) : filled outer branch = branch := by
  induction branch with
  | nil => rfl
  | cons c rest ih =>
    obtain ⟨own, others⟩ := not_or.mp (mt List.mem_cons.mpr absent)
    have other : c ≠ '&' := fun same => own same.symm
    rw [filled, List.flatMap_cons, if_neg other]
    exact congrArg (c :: ·) (ih others)

theorem replace_eq_filled : replace '&' outer branch = filled outer branch := by
  simp [replace, filled]

theorem nest_eq_under (outer branch : Text) : nest outer branch = under outer branch := by
  simp [nest, under, replace_eq_filled]

/-- A text that reads the same at every depth can stand for the sign of the parent. -/
theorem along_filled {p : Nest → Char → Prop} {nest : Nest} (visible : Along Visible nest branch)
    (along : Along p nest branch)
    (holds : ∀ depth, Along p (within depth) outer) (returns : ∀ depth, (within depth).read outer = within depth) :
    Along p nest (filled outer branch) ∧ nest.read (filled outer branch) = nest.read branch := by
  induction branch generalizing nest with
  | nil => exact ⟨trivial, rfl⟩
  | cons c rest ih =>
    obtain ⟨inside, same⟩ := ih visible.2 along.2
    by_cases sign : c = '&'
    · subst sign
      have place := eq_within (visible.1 rfl)
      have stays : nest.step '&' = nest := by
        rw [place]
        exact step_ordinary (by decide) nest.depth
      have back : nest.read outer = nest := by
        rw [place]
        exact returns nest.depth
      rw [stays] at inside same
      have front : filled outer ('&' :: rest) = outer ++ filled outer rest := rfl
      rw [front]
      refine ⟨along_append.mpr ⟨?_, ?_⟩, ?_⟩
      · rw [place]
        exact holds nest.depth
      · rwa [back]
      · rw [read_append, back, same, Nest.read, Nest.read, List.foldl_cons, stays]
    · have front : filled outer (c :: rest) = c :: filled outer rest := by
        rw [filled, List.flatMap_cons, if_neg sign]
        rfl
      rw [front]
      exact ⟨⟨along.1, inside⟩, same⟩

private theorem head_filled {c : Char} (inhabited : outer ≠ []) (first : (filled outer branch).head? = some c) :
    outer.head? = some c ∨ branch.head? = some c := by
  cases branch with
  | nil => cases first
  | cons d rest =>
    obtain ⟨e, letters, rfl⟩ := List.exists_cons_of_ne_nil inhabited
    by_cases sign : d = '&' <;> simp_all [filled]

private theorem last_filled {c : Char} (inhabited : outer ≠ []) (last : (filled outer branch).getLast? = some c) :
    outer.getLast? = some c ∨ branch.getLast? = some c := by
  rcases List.eq_nil_or_concat' branch with rfl | ⟨front, d, rfl⟩
  · cases last
  · rw [filled_append] at last
    by_cases sign : d = '&' <;> simp_all [filled]

theorem trimmed_filled (inhabited : outer ≠ []) (around : Trimmed outer) (inner : Trimmed branch) :
    Trimmed (filled outer branch) where
  first c found := (head_filled inhabited found).elim (around.first c) (inner.first c)
  last c found := (last_filled inhabited found).elim (around.last c) (inner.last c)

theorem filled_ne_nil (inhabited : outer ≠ []) : filled outer branch = [] ↔ branch = [] := by
  cases branch with
  | nil => exact iff_of_true rfl rfl
  | cons c rest =>
    by_cases sign : c = '&' <;> simp [filled, sign, inhabited]

end Filling

section Root

variable {mark : Char → Bool} {word : Text}

/-- A word without marks and brackets in the place of the sign moves no cut, not even in a text that
leaves brackets or quotes open. -/
theorem topLevelFrom_filled {nest : Nest} (quoting : Quoting nest) (inhabited : word ≠ [])
    (plain : ∀ c ∈ word, ordinary c = true) (other : ∀ c ∈ word, mark c = false) (sign : mark '&' = false)
    (begun s : Text) :
    topLevelFrom mark nest (filled word begun).reverse (filled word s) =
      (topLevelFrom mark nest begun.reverse s).map (filled word) := by
  induction s generalizing nest begun with
  | nil => simp [topLevelFrom, filled]
  | cons c rest ih =>
    by_cases same : c = '&'
    · subst same
      have front : filled word ('&' :: rest) = word ++ filled word rest := rfl
      have stays : nest.cutsAt mark '&' = false := by simp [Nest.cutsAt, sign]
      have onward := ih (quoting.step '&') (begun ++ ['&'])
      rw [quoting.step_ordinary (by decide), filled_append, List.reverse_append, List.reverse_append] at onward
      rw [front, topLevelFrom_append (uncut_unmarked other nest), quoting.read_ordinary inhabited plain, topLevelFrom, stays,
        if_neg Bool.false_ne_true, quoting.step_ordinary (by decide)]
      simpa [filled] using onward
    · have front : filled word (c :: rest) = c :: filled word rest := by
        rw [filled, List.flatMap_cons, if_neg same]
        rfl
      rw [front, topLevelFrom, topLevelFrom]
      split
      next =>
        have onward := ih quoting []
        rw [List.map_cons, List.reverse_reverse, List.reverse_reverse]
        exact congrArg _ onward
      next =>
        have onward := ih (quoting.step c) (begun ++ [c])
        rw [filled_append] at onward
        simpa [filled, same] using onward

theorem trim_filled (inhabited : word ≠ []) (trimmed : Trimmed word) (s : Text) :
    trim (filled word s) = filled word (trim s) := by
  obtain ⟨before, after, whole, white, white'⟩ := trim_spec s
  have absent : ∀ {blanks : Text}, (∀ c ∈ blanks, isBlank c = true) → '&' ∉ blanks := by
    intro blanks white member
    exact absurd (white '&' member) (by decide)
  have parts : filled word s = before ++ (filled word (trim s) ++ after) := by
    rw [whole, filled_append, filled_append, ← whole, filled_eq_self (absent white), filled_eq_self (absent white')]
  rw [parts]
  exact trim_between_blanks white white' (trimmed_filled inhabited trimmed (trim_trimmed s))

theorem split_filled (inhabited : word ≠ []) (trimmed : Trimmed word) (plain : ∀ c ∈ word, ordinary c = true)
    (other : ∀ c ∈ word, mark c = false) (sign : mark '&' = false) (s : Text) :
    splitTopLevelBy mark (filled word s) = (splitTopLevelBy mark s).map (filled word) := by
  have quiet : Quoting {} := fun _ found => nomatch found
  have cuts := topLevelFrom_filled quiet inhabited plain other sign [] s
  have raw : topLevelFrom mark {} [] (filled word s) = (topLevelFrom mark {} [] s).map (filled word) := cuts
  have trims : trim ∘ filled word = filled word ∘ trim := funext (trim_filled inhabited trimmed)
  have blank : (fun piece : Text => !piece.isEmpty) ∘ filled word = fun piece => !piece.isEmpty := by
    funext piece
    have same : (filled word piece).isEmpty = piece.isEmpty := by
      rw [Bool.eq_iff_iff, List.isEmpty_iff, List.isEmpty_iff, filled_ne_nil inhabited]
    exact congrArg not same
  rw [splitTopLevelBy, raw, List.map_map, trims, ← List.map_map, List.filter_map, blank]
  rfl

theorem branches_atRoot (selector : Text) :
    branches (atRoot selector) = (branches selector).map (filled ":scope".toList) := by
  rw [atRoot, replace_eq_filled]
  exact split_filled (by decide) (by decide) (by decide) (by decide) (by decide) selector

end Root

/-- A branch that can stand anywhere and stays one branch there. -/
structure Settled (text : Text) : Prop where
  whole : Whole (· == ',') text
  sheltered : Along Sheltered {} text
  ends : Nest.read {} text = {}

section Settled

variable {outer branch : Text}

theorem settled_of_closed (closed : Closed branch) (whole : Whole (· == ',') branch) : Settled branch :=
  ⟨whole, closed.sheltered, outside_iff.mp closed.ends⟩

theorem Settled.branchesOr (settled : Settled branch) (fallback : Text → Text) : branchesOr fallback branch = [branch] := by
  have single : branches branch = [branch] := settled.whole.split
  rw [CascadeLens.branchesOr, single]

theorem Settled.read_within (settled : Settled branch) (depth : Nat) : (within depth).read branch = within depth := by
  have inside := read_deeper settled.sheltered depth
  rw [settled.ends] at inside
  have start : deeper depth {} = within depth := by simp [deeper, within]
  rwa [start] at inside

theorem Settled.along_within {p : Nest → Char → Prop} (settled : Settled branch) (along : Along p {} branch)
    (below : ∀ depth nest c, p nest c → p (deeper depth nest) c) (depth : Nat) : Along p (within depth) branch := by
  have inside := settled.sheltered.deeper along depth (below depth)
  have start : deeper depth {} = within depth := by simp [deeper, within]
  rwa [start] at inside

theorem sheltered_deeper (depth : Nat) (nest : Nest) (c : Char) (sheltered : Sheltered nest c) :
    Sheltered (deeper depth nest) c := by
  intro closes bare
  have inside := sheltered closes bare
  simp only [deeper]
  omega

theorem settled_filled (around : Settled outer) (closed : Closed branch) (whole : Whole (· == ',') branch) :
    Settled (filled outer branch) := by
  have sheltered := along_filled closed.visible closed.sheltered (around.along_within around.sheltered sheltered_deeper)
    around.read_within
  have uncut := along_filled closed.visible whole.uncut
    (around.along_within around.whole.uncut fun depth _ _ uncut => uncut_deeper uncut depth) around.read_within
  refine ⟨⟨?_, ?_, uncut.1⟩, sheltered.1, ?_⟩
  · exact mt (filled_ne_nil around.whole.filled).mp whole.filled
  · exact trimmed_filled around.whole.filled around.whole.trimmed whole.trimmed
  · rw [sheltered.2, outside_iff.mp closed.ends]

theorem settled_joined (around : Settled outer) (inner : Settled branch) : Settled (outer ++ ' ' :: branch) := by
  have along : ∀ p, Along p {} outer → p {} ' ' → Along p {} branch → Along p {} (outer ++ ' ' :: branch) := by
    intro p first space second
    refine along_append.mpr ⟨first, ?_⟩
    rw [around.ends]
    exact ⟨space, second⟩
  refine ⟨⟨by simp, ⟨?_, ?_⟩, ?_⟩, ?_, ?_⟩
  · intro c found
    obtain ⟨d, rest, rfl⟩ := List.exists_cons_of_ne_nil around.whole.filled
    exact around.whole.trimmed.first c (by simpa using found)
  · intro c found
    obtain ⟨d, rest, rfl⟩ := List.exists_cons_of_ne_nil inner.whole.filled
    exact inner.whole.trimmed.last c (by simpa using found)
  · exact along _ around.whole.uncut (by decide) inner.whole.uncut
  · exact along _ around.sheltered (by decide) inner.sheltered
  · rw [read_append, around.ends]
    exact inner.ends

theorem settled_under (around : Settled outer) (closed : Closed branch) (whole : Whole (· == ',') branch) :
    Settled (under outer branch) := by
  unfold under
  split
  · exact settled_filled around closed whole
  · exact settled_joined around (settled_of_closed closed whole)

theorem settled_scope : Settled ":scope".toList :=
  ⟨⟨by decide, by decide, by decide⟩, by decide, by decide⟩

end Settled

/-- A selector with a branch at least, and all its branches closed. -/
def Branching (selector : Text) : Prop :=
  branches selector ≠ [] ∧ ∀ branch ∈ branches selector, Closed branch

instance (selector : Text) : Decidable (Branching selector) := inferInstanceAs (Decidable (_ ∧ _))

theorem choices_append {blocks : List StyleBlock} (inhabited : blocks ≠ []) (own : StyleBlock) :
    choices (blocks ++ [own]) = choices blocks ++ [branches own.selector] := by
  obtain ⟨root, nested, rfl⟩ := List.exists_cons_of_ne_nil inhabited
  simp [choices]

theorem choices_length {blocks : List StyleBlock} :
    (choices blocks).map List.length = blocks.map fun block => (branches block.selector).length := by
  cases blocks with
  | nil => rfl
  | cons root nested => simp [choices]

theorem branchesOr_inhabited {selector : Text} (inhabited : branches selector ≠ []) (fallback : Text → Text) :
    branchesOr fallback selector = branches selector := by
  unfold branchesOr
  split
  next none => exact absurd none inhabited
  next => rfl

/-- What a nested rule makes of the branches of the rules around it. -/
def product (blocks : List StyleBlock) : List Text := (tuples (choices blocks)).map tupleText

theorem product_append {blocks : List StyleBlock} (inhabited : blocks ≠ []) (own : StyleBlock) :
    product (blocks ++ [own]) = (product blocks).flatMap fun outer => (branches own.selector).map (under outer) := by
  obtain ⟨root, nested, rfl⟩ := List.exists_cons_of_ne_nil inhabited
  rw [product, choices_append inhabited, tuples_append_singleton, List.map_flatMap, product, List.flatMap_map]
  apply List.flatMap_congr
  intro tuple member
  rw [List.map_map]
  apply List.map_congr_left
  intro branch _
  exact tupleText_append_singleton (tuple_inhabited member) branch

theorem product_settled {blocks : List StyleBlock} (inhabited : blocks ≠ [])
    (closed : ∀ block ∈ blocks, Branching block.selector) : ∀ text ∈ product blocks, Settled text := by
  induction blocks using List.reverseRecOn with
  | nil => exact absurd rfl inhabited
  | append_singleton front own ih =>
    have own_closed := closed own (List.mem_append_right _ List.mem_cons_self)
    intro text member
    rcases eq_or_ne front [] with rfl | more
    · simp only [product, choices, List.nil_append, List.map_nil, tuples, List.map_cons, List.mem_map, List.mem_flatMap,
        List.mem_singleton] at member
      obtain ⟨_, ⟨_, ⟨branch, listed, rfl⟩, _, rfl, rfl⟩, rfl⟩ := member
      exact settled_filled settled_scope (own_closed.2 branch listed) (whole_of_member listed)
    · rw [product_append more] at member
      obtain ⟨outer, inside, branch, listed, rfl⟩ := by simpa only [List.mem_flatMap, List.mem_map] using member
      have around := ih more (fun block among => closed block (List.mem_append_left _ among)) outer inside
      exact settled_under around (own_closed.2 branch listed) (whole_of_member listed)

theorem variants_branches (own : StyleBlock) (outer : List StyleBlock)
    (closed : ∀ block ∈ (own :: outer).reverse, Branching block.selector) :
    (variants own outer).flatMap (branchesOr id) = product (own :: outer).reverse ∧
      (outer ≠ [] → variants own outer = product (own :: outer).reverse) := by
  induction outer generalizing own with
  | nil =>
    have inhabited := (closed own (by simp)).1
    have root : branches (atRoot own.selector) ≠ [] := by simpa [branches_atRoot] using inhabited
    refine ⟨?_, fun nested => absurd rfl nested⟩
    rw [variants, List.flatMap_singleton, branchesOr_inhabited root, branches_atRoot]
    simp [product, choices, tuples, tupleText, ← List.map_eq_flatMap]
  | cons parent outer ih =>
    have earlier : ∀ block ∈ (parent :: outer).reverse, Branching block.selector := fun block member =>
      closed block (by
        rw [List.reverse_cons]
        exact List.mem_append_left _ member)
    have own_closed := closed own (by simp)
    have inner : (own :: parent :: outer).reverse = (parent :: outer).reverse ++ [own] := List.reverse_cons
    have same : variants own (parent :: outer) = product (own :: parent :: outer).reverse := by
      rw [variants, fanOut, (ih parent earlier).1, branchesOr_inhabited own_closed.1, inner, product_append (by simp)]
      simp only [funext₂ nest_eq_under]
    refine ⟨?_, fun _ => same⟩
    have settled := product_settled (by simp) closed
    rw [same]
    calc (product (own :: parent :: outer).reverse).flatMap (branchesOr id)
        = (product (own :: parent :: outer).reverse).flatMap ([·]) :=
          List.flatMap_congr fun text member => (settled text member).branchesOr id
      _ = product (own :: parent :: outer).reverse := List.flatMap_singleton' _

/-- A nested rule stands for one selector for each choice of branches along its chain, in the order of
the choices, and each of them is a single branch. It does so whatever the resolver was asked before. -/
theorem resolve_product (rule : Rule) (nested : rule.outer ≠ []) (closed : ∀ block ∈ chain rule, Branching block.selector)
    (bound : Int) (steps : List ResolverStep) :
    let texts := ((resolverAfter bound steps).resolve rule).1.map (·.text)
    texts = (tuples (choices (chain rule))).map tupleText ∧
      texts.length = ((chain rule).map fun block => (branches block.selector).length).prod ∧
      ∀ text ∈ texts, branches text = [text] := by
  have same : ((resolverAfter bound steps).resolve rule).1.map (·.text) = product (chain rule) := by
    rw [resolve_after, List.map_map, chain, ← (variants_branches rule.toStyleBlock rule.outer closed).2 nested]
    exact List.map_id _
  intro texts
  have listed : texts = product (chain rule) := same
  refine ⟨listed, ?_, ?_⟩
  · rw [listed, product, List.length_map, length_tuples, choices_length]
  · intro text member
    rw [listed] at member
    exact (product_settled (by simp [chain]) closed text member).whole.split

/-- Two branches around one, with brackets and quotes, and two inside. -/
def menuLink : Rule :=
  { selector := "&:hover, :not(&, [title='a, b']) > a".toList
    outer := [{ selector := "a:is(.x, &)".toList }, { selector := ".menu, & nav".toList }] }

theorem menu_link_selectors : menuLink.outer ≠ [] ∧ (∀ block ∈ chain menuLink, Branching block.selector) ∧
    ((resolverAfter 8 []).resolve menuLink).1.map (·.text) =
      ["a:is(.x, .menu):hover".toList, ":not(a:is(.x, .menu), [title='a, b']) > a".toList,
        "a:is(.x, :scope nav):hover".toList, ":not(a:is(.x, :scope nav), [title='a, b']) > a".toList] := by
  have nested : menuLink.outer ≠ [] := by decide
  have closed : ∀ block ∈ chain menuLink, Branching block.selector := by decide
  obtain ⟨listed, -, -⟩ := resolve_product menuLink nested closed 8 []
  exact ⟨nested, closed, listed.trans (by decide)⟩

end CascadeLens.Proofs.NestingProduct
