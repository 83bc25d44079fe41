import CascadeLens.Analysis.File
import CascadeLens.Proofs.CascadeRanking
import CascadeLens.Proofs.SelectorCuts
import CascadeLens.Proofs.SelectorReading
import Mathlib.Data.List.Forall2

/-! The branches into which a selector is cut are those it is read as. Each of them can be read by itself,
and the selector counts for as much as the one that counts for most. -/

namespace CascadeLens.Proofs.SelectorBranches
open Text hiding Unfinished
open Selector TextShape SelectorEscapes SelectorLexemes SelectorSpelling SelectorCuts

/-- A reader with branches put behind those of its outermost list. -/
def under (before : List Branch) : Unfinished → List (ListFunction × Unfinished) → Reader
  | list, [] => ⟨{ list with branches := list.branches ++ before }, []⟩
  | list, (function, around) :: outer =>
    ⟨list, (function, (under before around outer).list) :: (under before around outer).outer⟩

/-- The branches that have ended in the outermost list. -/
def ended : Unfinished → List (ListFunction × Unfinished) → List Branch
  | list, [] => list.branches
  | _, (_, around) :: outer => ended around outer

section Readers

variable {before parsed : List Branch} {list last : Unfinished} {outer : List (ListFunction × Unfinished)} {token : Token}
  {next : Reader} {tokens : List Token} {row begun : List Spelt}

/-- Earlier branches do not matter to what comes next. -/
theorem step_under (before : List Branch) (list : Unfinished) (outer : List (ListFunction × Unfinished)) (token : Token) :
    (under before list outer).step? token =
      (Reader.step? ⟨list, outer⟩ token).map fun next => under before next.list next.outer := by
  cases token with
  | simple part => cases outer <;> rfl
  | combinator => cases outer <;> rfl
  | enter function => cases outer <;> rfl
  | comma =>
    by_cases empty : list.items.isEmpty = true
    all_goals cases outer <;> simp [under, Reader.step?, Unfinished.endBranch?, empty]
  | close =>
    cases outer with
    | nil => rfl
    | cons opener outer =>
      obtain ⟨function, around⟩ := opener
      simp only [under, Reader.step?, Option.map_map]
      cases outer <;> rfl

theorem step_depth (stepped : Reader.step? ⟨list, outer⟩ token = some next) : next.outer.length = behind token outer.length := by
  cases token with
  | simple part =>
    obtain rfl := Option.some.inj stepped
    rfl
  | combinator =>
    obtain rfl := Option.some.inj stepped
    rfl
  | enter function =>
    obtain rfl := Option.some.inj stepped
    rfl
  | comma =>
    obtain ⟨list, _, rfl⟩ := Option.map_eq_some_iff.mp stepped
    rfl
  | close =>
    cases outer with
    | nil => cases stepped
    | cons opener outer =>
      obtain ⟨branches, _, rfl⟩ := Option.map_eq_some_iff.mp stepped
      rfl

/-- As many parentheses are open behind tokens as there are functions to be ended. -/
theorem run_depth {reader last : Reader} (run : tokens.foldlM Reader.step? reader = some last) :
    tokens.foldl (fun depth token => behind token depth) reader.outer.length = last.outer.length := by
  induction tokens generalizing reader with
  | nil =>
    obtain rfl := Option.some.inj run
    rfl
  | cons token tokens ih =>
    obtain ⟨next, stepped, later⟩ := Option.bind_eq_some_iff.mp run
    rw [List.foldl_cons, ← step_depth stepped]
    exact ih later

theorem step_kept (stepped : Reader.step? ⟨list, outer⟩ token = some next) (inner : ¬ (outer.length = 0 ∧ token = .comma)) :
    ended next.list next.outer = ended list outer := by
  cases token with
  | simple part =>
    obtain rfl := Option.some.inj stepped
    cases outer <;> rfl
  | combinator =>
    obtain rfl := Option.some.inj stepped
    cases outer <;> rfl
  | enter function =>
    obtain rfl := Option.some.inj stepped
    rfl
  | comma =>
    obtain ⟨list, _, rfl⟩ := Option.map_eq_some_iff.mp stepped
    cases outer with
    | nil => exact absurd ⟨rfl, rfl⟩ inner
    | cons opener outer => rfl
  | close =>
    cases outer with
    | nil => cases stepped
    | cons opener outer =>
      obtain ⟨function, around⟩ := opener
      obtain ⟨branches, _, rfl⟩ := Option.map_eq_some_iff.mp stepped
      cases outer <;> rfl

theorem ended_branch {list ended : Unfinished} (done : list.endBranch? = some ended) :
    list.items ≠ [] ∧ ended = ⟨[], list.items.reverse :: list.branches⟩ := by
  unfold Unfinished.endBranch? at done
  split at done
  · cases done
  next filled => exact ⟨by simpa using filled, (Option.some.inj done).symm⟩

theorem branch_read (reached : tokens.foldlM Reader.step? {} = some ⟨list, []⟩) (fresh : list.branches = [])
    (filled : list.items ≠ []) :
    ofTokens? tokens = some [list.items.reverse] := by
  simp [ofTokens?, reached, Unfinished.finish?, Unfinished.endBranch?, filled, fresh]

/-- The tokens between two commas outside of functions are read as one branch. -/
theorem branches_read (reached : (begun.reverse.map Prod.fst).foldlM Reader.step? {} = some ⟨list, outer⟩)
    (fresh : ended list outer = [])
    (read : (row.map Prod.fst).foldlM Reader.step? (under before list outer) = some ⟨last, []⟩)
    (finished : last.finish? = some parsed) :
    ∃ later, parsed = before.reverse ++ later ∧
      List.Forall₂ (fun group branch => ofTokens? (group.map Prod.fst) = some [branch])
        (branchesFrom outer.length begun row) later := by
  induction row generalizing begun list outer before with
  | nil =>
    cases outer with
    | cons opener outer => cases read
    | nil =>
      obtain ⟨done, ending, rfl⟩ := Option.map_eq_some_iff.mp finished
      obtain rfl : _ = last := congrArg Reader.list (Option.some.inj read)
      obtain ⟨filled, rfl⟩ := ended_branch ending
      have none : list.branches = [] := fresh
      refine ⟨[list.items.reverse], ?_, .cons (branch_read reached none filled) .nil⟩
      simp [under, none]
  | cons spelt row ih =>
    rw [List.map_cons, List.foldlM_cons, step_under, Option.bind_eq_bind, Option.bind_eq_some_iff] at read
    obtain ⟨reader, moved, onward⟩ := read
    obtain ⟨next, stepped, rfl⟩ := Option.map_eq_some_iff.mp moved
    by_cases comma : outer.length = 0 ∧ spelt.1 = .comma
    · rw [branchesFrom, if_pos comma]
      obtain ⟨flat, sign⟩ := comma
      obtain rfl := List.length_eq_zero_iff.mp flat
      rw [sign] at stepped
      obtain ⟨done, ending, rfl⟩ := Option.map_eq_some_iff.mp stepped
      obtain ⟨filled, rfl⟩ := ended_branch ending
      have none : list.branches = [] := fresh
      have fits : under before ⟨[], list.items.reverse :: list.branches⟩ [] =
        under (list.items.reverse :: before) {} [] := by
        simp [under, none]
      rw [fits] at onward
      obtain ⟨later, whole, groups⟩ := @ih (list.items.reverse :: before) {} [] [] rfl rfl onward
      refine ⟨list.items.reverse :: later, by rw [whole]; simp, .cons (branch_read reached none filled) groups⟩
    · have kept := step_kept stepped comma
      have reached' : ((spelt :: begun).reverse.map Prod.fst).foldlM Reader.step? {} = some next := by
        rw [List.reverse_cons, List.map_append, List.foldlM_append, reached]
        simp [stepped]
      rw [branchesFrom, if_neg comma, ← step_depth stepped]
      exact ih reached' (kept.trans fresh) onward

theorem branches_of_tokens (read : ofTokens? (row.map Prod.fst) = some parsed) :
    List.Forall₂ (fun group branch => ofTokens? (group.map Prod.fst) = some [branch]) (branchesFrom 0 [] row) parsed := by
  unfold ofTokens? at read
  split at read
  next list run =>
    obtain ⟨later, rfl, groups⟩ := @branches_read [] parsed {} list [] row [] rfl rfl run read
    exact groups
  next => cases read

end Readers

/-- Tokens that count for the same. -/
inductive Similar : Token → Token → Prop
  | same (token : Token) : Similar token token
  | simple {part other : Simple} (weight : part.weight = other.weight) : Similar (.simple part) (.simple other)

theorem Similar.trans {first second third : Token} (before : Similar first second) (after : Similar second third) :
    Similar first third := by
  cases before with
  | same => exact after
  | simple weight =>
    cases after with
    | same => exact .simple weight
    | simple weight' => exact .simple (weight.trans weight')

/-- What counts of a list that is being read. -/
def tally (list : Unfinished) : List Specificity × List Specificity :=
  (list.items.map Item.weight, list.branches.map branchWeight)

def tallies (reader : Reader) :
    (List Specificity × List Specificity) × List (ListFunction × List Specificity × List Specificity) :=
  (tally reader.list, reader.outer.map (Prod.map id tally))


section Tallies

variable {list list' : Unfinished} {reader reader' : Reader} {token token' : Token} {tokens others : List Token}

theorem weights_map (parsed : List Branch) : weights parsed = parsed.map branchWeight := by
  induction parsed with
  | nil => rfl
  | cons branch rest ih => rw [weights, ih, List.map_cons]

theorem branchWeight_of_items {items items' : Branch} (same : items.map Item.weight = items'.map Item.weight) :
    branchWeight items = branchWeight items' := by
  induction items generalizing items' with
  | nil => rw [List.map_eq_nil_iff.mp same.symm]
  | cons item items ih =>
    obtain ⟨item', rest, rfl, weight, more⟩ := List.map_eq_cons_iff.mp same.symm
    rw [branchWeight, branchWeight, ih more.symm, weight]

theorem tally_push (same : tally list = tally list') {item item' : Item} (weight : item.weight = item'.weight) :
    tally (list.push item) = tally (list'.push item') := by
  obtain ⟨items, branches⟩ := Prod.mk.inj same
  simp [tally, Unfinished.push, items, branches, weight]

theorem endBranch_tally (same : tally list = tally list') :
    list.endBranch?.map tally = list'.endBranch?.map tally := by
  obtain ⟨items, branches⟩ := Prod.mk.inj same
  have empty : list.items.isEmpty = list'.items.isEmpty := by
    rw [← List.isEmpty_map, items, List.isEmpty_map]
  have last : branchWeight list.items.reverse = branchWeight list'.items.reverse :=
    branchWeight_of_items (by rw [List.map_reverse, List.map_reverse, items])
  unfold Unfinished.endBranch?
  rw [empty]
  split
  · rfl
  · simp [tally, branches, last]

theorem finish_tally (same : tally list = tally list') :
    list.finish?.map (·.map branchWeight) = list'.finish?.map (·.map branchWeight) := by
  have ends := congrArg (Option.map fun counts => counts.2.reverse) (endBranch_tally same)
  simpa [Unfinished.finish?, Option.map_map, Function.comp_def, tally] using ends

theorem step_push {outer outer' : List (ListFunction × Unfinished)} (same : tally list = tally list')
    (around : outer.map (Prod.map id tally) = outer'.map (Prod.map id tally)) {item item' : Item}
    (weight : item.weight = item'.weight) : tallies ⟨list.push item, outer⟩ = tallies ⟨list'.push item', outer'⟩ :=
  Prod.ext (tally_push same weight) around

/-- A step counts for the same as one of a token that does. -/
theorem step_similar (same : tallies reader = tallies reader') (similar : Similar token token') :
    (reader.step? token).map tallies = (reader'.step? token').map tallies := by
  obtain ⟨list, outer⟩ := reader
  obtain ⟨list', outer'⟩ := reader'
  obtain ⟨own, around⟩ := Prod.mk.inj same
  cases similar with
  | simple weight => exact congrArg some (step_push own around weight)
  | same token =>
    cases token with
    | simple part => exact congrArg some (step_push own around rfl)
    | combinator => exact congrArg some (step_push own around rfl)
    | enter function =>
      exact congrArg some (Prod.ext rfl (congrArg₂ List.cons (congrArg (Prod.mk function) own) around))
    | comma =>
      have ends := congrArg (Option.map fun counts => (counts, outer.map (Prod.map id tally))) (endBranch_tally own)
      simp only [Option.map_map, Function.comp_def] at ends
      simp only [Reader.step?, Option.map_map, Function.comp_def, tallies]
      rw [ends, around]
    | close =>
      cases outer with
      | nil =>
        obtain rfl := List.map_eq_nil_iff.mp around.symm
        rfl
      | cons opener outer =>
        obtain ⟨opener', more, rfl, pair, behind⟩ := List.map_eq_cons_iff.mp around.symm
        obtain ⟨function, host⟩ := opener
        obtain ⟨function', host'⟩ := opener'
        obtain ⟨rfl, hosts⟩ := Prod.mk.inj pair
        have ends := finish_tally own
        simp only [Reader.step?, Option.map_map]
        cases done : list.finish? with
        | none =>
          rw [done] at ends
          rw [Option.map_eq_none_iff.mp ends.symm]
          rfl
        | some branches =>
          rw [done] at ends
          obtain ⟨branches', done', counts⟩ := Option.map_eq_some_iff.mp ends.symm
          rw [done']
          refine congrArg some (step_push hosts.symm behind.symm ?_)
          rw [Item.weight, Item.weight, weights_map, weights_map, counts]
          rfl

theorem run_similar (similar : List.Forall₂ Similar tokens others) (same : tallies reader = tallies reader') :
    (tokens.foldlM Reader.step? reader).map tallies = (others.foldlM Reader.step? reader').map tallies := by
  induction similar generalizing reader reader' with
  | nil => exact congrArg some same
  | @cons token token' tokens others own later ih =>
    have stepped := step_similar same own
    rw [List.foldlM_cons, List.foldlM_cons]
    cases next : reader.step? token with
    | none =>
      rw [next] at stepped
      rw [Option.map_eq_none_iff.mp stepped.symm]
      rfl
    | some next' =>
      rw [next] at stepped
      obtain ⟨other, next'', same'⟩ := Option.map_eq_some_iff.mp stepped.symm
      rw [next'']
      exact ih same'.symm

/-- Tokens that count for the same one by one are branches that do. -/
theorem ofTokens_similar (similar : List.Forall₂ Similar tokens others) :
    (ofTokens? tokens).map (·.map branchWeight) = (ofTokens? others).map (·.map branchWeight) := by
  have run := @run_similar {} {} _ _ similar rfl
  unfold ofTokens?
  cases reached : tokens.foldlM Reader.step? {} with
  | none =>
    rw [reached] at run
    rw [Option.map_eq_none_iff.mp run.symm]
  | some reader =>
    rw [reached] at run
    obtain ⟨reader', reached', same⟩ := Option.map_eq_some_iff.mp run.symm
    rw [reached']
    obtain ⟨list, outer⟩ := reader
    obtain ⟨list', outer'⟩ := reader'
    obtain ⟨own, around⟩ := Prod.mk.inj same
    cases outer with
    | nil =>
      obtain rfl := List.map_eq_nil_iff.mp around
      exact finish_tally own.symm
    | cons opener outer =>
      obtain ⟨opener', outer', rfl, -⟩ := List.map_eq_cons_iff.mp around
      rfl

theorem similar_of_alike (alike : Alike tokens others) : List.Forall₂ Similar tokens others := by
  have refl : ∀ tokens, List.Forall₂ Similar tokens tokens := fun tokens => List.forall₂_same.mpr fun token _ => .same token
  cases alike with
  | same => exact refl tokens
  | last whole weight =>
    rw [whole]
    exact List.rel_append (refl _) (.cons (.simple weight) .nil)

/-- A last simple selector that counts for the same changes nothing. -/
theorem ofTokens_alike {branch : Branch} (alike : Alike tokens others) (read : ofTokens? tokens = some [branch]) :
    ∃ similar, ofTokens? others = some [similar] ∧ branchWeight similar = branchWeight branch := by
  have counts := ofTokens_similar (similar_of_alike alike)
  rw [read] at counts
  obtain ⟨branches, read', same⟩ := Option.map_eq_some_iff.mp counts.symm
  obtain ⟨similar, rest, rfl, weight, none⟩ := List.map_eq_cons_iff.mp same
  obtain rfl := List.map_eq_nil_iff.mp none
  exact ⟨similar, read', weight⟩

end Tallies

section Branches

variable {s : Text} {row group : List Spelt} {branch : Branch}

theorem lexed_not_blank (lexed : Lexed s row) (clear : Clear s) (filled : row ≠ []) : blank s = false := by
  cases lexed with
  | done => exact absurd rfl filled
  | @more gap text rest token row room own later =>
    obtain ⟨c, more, rfl, solid, -⟩ := own.read clear.right.left.ascii
    simp [blank, solid]

/-- A branch without the blanks around it is read by itself, and counts for the same. -/
theorem trimmed_branch (lexed : Lexed s row) (clear : Clear s) (read : ofTokens? (row.map Prod.fst) = some [branch]) :
    trim s ≠ [] ∧ ∃ similar, parse? (trim s) = some [similar] ∧ branchWeight similar = branchWeight branch := by
  have filled : row ≠ [] := by
    rintro rfl
    cases read
  obtain ⟨trimmed, alone, some, alike⟩ := lexed_trim lexed clear filled
  obtain ⟨similar, read', weight⟩ := ofTokens_alike alike read
  obtain ⟨before, after, whole, -, -⟩ := trim_spec s
  have clear' : Clear (trim s) := clear.part ⟨before, after, by rw [List.append_assoc, ← whole]⟩
  refine ⟨alone.filled clear' some, similar, ?_, weight⟩
  rw [parse?, lexed_not_blank alone clear' some, alone.tokens clear']
  exact read'

/-- A branch of a row is a part of it. -/
theorem mem_branchesFrom {depth : Nat} {begun : List Spelt} (member : group ∈ branchesFrom depth begun row) :
    ∃ front back, begun.reverse ++ row = front ++ (group ++ back) := by
  induction row generalizing depth begun with
  | nil => exact ⟨[], [], by rw [List.mem_singleton.mp member]; simp⟩
  | cons spelt row ih =>
    unfold branchesFrom at member
    split at member
    · rcases List.mem_cons.mp member with rfl | later
      · exact ⟨[], spelt :: row, rfl⟩
      · obtain ⟨front, back, whole⟩ := ih later
        exact ⟨begun.reverse ++ spelt :: front, back, by rw [List.append_assoc, List.cons_append, ← whole]; rfl⟩
    · obtain ⟨front, back, whole⟩ := ih member
      exact ⟨front, back, by rw [← whole]; simp⟩

end Branches

section Greatest

open Std CascadeRanking

/-- The greatest of some specificities. -/
structure Peak (top : Specificity) (all : List Specificity) : Prop where
  member : top ∈ all
  above : ∀ other ∈ all, (other.order top).isLE = true

theorem larger_cases (a b : Specificity) : Specificity.larger a b = a ∧ (b.order a).isLE = true ∨
    Specificity.larger a b = b ∧ (a.order b).isLE = true := by
  unfold Specificity.larger
  by_cases less : a.order b = .lt
  · exact Or.inr ⟨by simp [less], by rw [less]; rfl⟩
  · exact Or.inl ⟨by simp [less], isLE_of_not_lt less⟩

theorem greatest_peak {all : List Specificity} (filled : all ≠ []) : Peak (Specificity.greatest all) all := by
  obtain ⟨first, rest, rfl⟩ := List.exists_cons_of_ne_nil filled
  clear filled
  change Peak (rest.foldl Specificity.larger first) (first :: rest)
  induction rest generalizing first with
  | nil => exact ⟨List.mem_cons_self, by simpa using ReflCmp.isLE_rfl⟩
  | cons next rest ih =>
    obtain ⟨member, above⟩ := ih (Specificity.larger first next)
    obtain ⟨reached, others⟩ := List.forall_mem_cons.mp above
    rw [List.foldl_cons]
    rcases larger_cases first next with ⟨same, lower⟩ | ⟨same, lower⟩
    all_goals rw [same] at member reached others ⊢
    · refine ⟨?_, List.forall_mem_cons.mpr ⟨reached, List.forall_mem_cons.mpr ⟨TransCmp.isLE_trans lower reached, others⟩⟩⟩
      exact List.cons_subset_cons first (List.subset_cons_self next rest) member
    · refine ⟨List.mem_cons_of_mem first member, List.forall_mem_cons.mpr ⟨TransCmp.isLE_trans lower reached, ?_⟩⟩
      exact List.forall_mem_cons.mpr ⟨reached, others⟩

end Greatest

/-- A selector without comments whose blanks are ASCII, with backslashes before something else, and with tidy
contents of brackets and functions. -/
structure Plain (s : Text) : Prop where
  comments : holds ['/', '*'] s = false
  blanks : ∀ c ∈ s, isBlank c = true → isAscii c = true
  escapes : s.IsChain fun a b => a = '\\' → isBlank b = false
  tokens : ∀ tokens, tokens? s = some tokens → ∀ token ∈ tokens, TidyToken token

/-- The branches of a row of tokens. -/
def branchesOf (row : List Spelt) : List (List Spelt) := branchesFrom 0 [] row

/-- What the text, its tokens and the branches it is read as have to do with each other. -/
structure Branched (s : Text) (row : List Spelt) (parsed : List Branch) : Prop where
  spelt : spelt? s = some row
  tokens : tokens? s = some (row.map Prod.fst)
  text : ∃ gap, s = spelling row ++ gap ∧ ∀ c ∈ gap, isBlank c = true
  read : List.Forall₂ (fun group branch => ofTokens? (group.map Prod.fst) = some [branch]) (branchesOf row) parsed
  cut : branches s = (branchesOf row).map (trim ∘ spelling)
  accepted : ∀ branch ∈ branches s, (parse? branch).isSome = true
  peak : Peak (specificity s) ((branches s).map specificity)
  bounded : ∀ identity : Identity, ((identity.specificityOf s).order (specificity s)).isLE = true

section Agreement

variable {s : Text} {row : List Spelt} {parsed : List Branch}

/-- Matching branches never count for more than all of them. -/
theorem specificityOf_le (peak : Peak (specificity s) ((branches s).map specificity)) (identity : Identity) :
    ((identity.specificityOf s).order (specificity s)).isLE = true := by
  unfold Identity.specificityOf
  split
  next => exact Std.ReflCmp.isLE_rfl
  next matching filled =>
    have some : (identity.matchingBranches s).map specificity ≠ [] := by simpa using filled
    have top := (greatest_peak some).member
    obtain ⟨branch, among, same⟩ := List.mem_map.mp top
    rw [← same]
    exact peak.above _ (List.mem_map_of_mem (List.mem_filter.mp among).1)

theorem branchesFrom_ne_nil (depth : Nat) (begun row : List Spelt) : branchesFrom depth begun row ≠ [] := by
  induction row generalizing depth begun with
  | nil => exact List.cons_ne_nil _ _
  | cons spelt row ih =>
    unfold branchesFrom
    split
    · exact List.cons_ne_nil _ _
    · exact ih _ _

/-- Every branch of a text can stand alone. -/
theorem lexed_branches (lexed : Lexed s row) (clear : Clear s) :
    ∀ group ∈ branchesOf row, Lexed (spelling group) group ∧ Clear (spelling group) := by
  intro group member
  obtain ⟨front, back, whole⟩ := mem_branchesFrom member
  rw [List.reverse_nil, List.nil_append] at whole
  obtain ⟨rest, rfl, later⟩ := lexed_back (whole ▸ lexed)
  obtain ⟨alone, shorter⟩ := lexed_front later
  exact ⟨alone, clear.right.part shorter.isInfix⟩

/-- Each branch of a text is read by itself without the blanks around it, and counts for what it counts for there. -/
theorem branches_alone (lexed : Lexed s row) (clear : Clear s)
    (groups : List.Forall₂ (fun group branch => ofTokens? (group.map Prod.fst) = some [branch]) (branchesOf row) parsed) :
    List.Forall₂ (fun group branch =>
      (trim (spelling group) ≠ [] ∧ (parse? (trim (spelling group))).isSome = true) ∧
        specificity (trim (spelling group)) = branchWeight branch) (branchesOf row) parsed := by
  refine ((List.forall₂_and_left _ _).mpr ⟨lexed_branches lexed clear, groups⟩).imp ?_
  rintro group branch ⟨⟨own, inside⟩, found⟩
  obtain ⟨filled, similar, accepted, weight⟩ := trimmed_branch own inside found
  refine ⟨⟨filled, by rw [accepted]; rfl⟩, ?_⟩
  rw [specificity, accepted]
  exact weight

theorem cut_branches (lexed : Lexed s row) (tidy : ∀ spelt ∈ row, TidyToken spelt.1)
    (filled : ∀ group ∈ branchesOf row, trim (spelling group) ≠ []) :
    branches s = (branchesOf row).map (trim ∘ spelling) := by
  have cuts : (topLevelFrom (· == ',') {} [] s).map trim = (branchesOf row).map (trim ∘ spelling) :=
    cuts_of_lexed lexed tidy 0 []
  rw [branches, splitTopLevel, splitTopLevelBy, cuts, List.filter_eq_self]
  intro piece member
  obtain ⟨group, among, rfl⟩ := List.mem_map.mp member
  simpa using filled group among

/-- A selector that is read as a list is cut into the branches of the list. -/
theorem branches_of_parsed (plain : Plain s) (read : parse? s = some parsed) : ∃ row, Branched s row parsed := by
  have clear : Clear s := ⟨plain.blanks, plain.escapes, holds_comment_iff.mp plain.comments⟩
  have listed := read
  rw [parse?] at listed
  split at listed
  · cases listed
  obtain ⟨tokens, lexical, spelled⟩ := Option.bind_eq_some_iff.mp listed
  have tidy := plain.tokens tokens lexical
  have rows := lexical
  rw [tokens_spelt []] at rows
  obtain ⟨row, spelt, rfl⟩ := Option.map_eq_some_iff.mp rows
  have lexed : Lexed s row := lexed_of_spelt airy_nil clear spelt
  have groups := branches_of_tokens spelled
  obtain ⟨accepted, weighed⟩ := (List.forall₂_and_left _ _).mp (branches_alone lexed clear groups)
  have cut := cut_branches lexed (fun spelt member => tidy spelt.1 (List.mem_map_of_mem member)) fun group member =>
    (accepted group member).1
  have same : (branches s).map specificity = weights parsed := by
    rw [cut, weights_map, List.map_map, ← List.forall₂_eq_eq_eq, List.forall₂_map_left_iff, List.forall₂_map_right_iff]
    exact weighed
  have peak : Peak (specificity s) ((branches s).map specificity) := by
    have filled : (branches s).map specificity ≠ [] := by
      rw [cut, ne_eq, List.map_eq_nil_iff, List.map_eq_nil_iff]
      exact branchesFrom_ne_nil 0 [] row
    have top := greatest_peak filled
    rw [same] at top ⊢
    rwa [specificity, read]
  refine ⟨row, spelt, lexical, lexed.text, groups, cut, ?_, peak, specificityOf_le peak⟩
  rw [cut]
  intro branch member
  obtain ⟨group, among, rfl⟩ := List.mem_map.mp member
  exact (accepted group among).2

/-- Commas behind a backslash, in a string, in arguments and in a list, and an escape that takes a blank. -/
def menuSelector : Text :=
  ".a\\31 , :is(b, [c=\"],(\"]) > p\\,q,\n li:nth-child(2n + 1 of \"x,y\")::before".toList

theorem menu_branches : ∃ parsed, Plain menuSelector ∧ parse? menuSelector = some parsed ∧ parsed.length = 3 ∧
    ∃ row, Branched menuSelector row parsed := by
  have readable : (parse? menuSelector).map List.length = some 3 := by decide +kernel
  obtain ⟨parsed, read, three⟩ := Option.map_eq_some_iff.mp readable
  have tidy : ∀ tokens ∈ tokens? menuSelector, ∀ token ∈ tokens, TidyToken token := by decide +kernel
  have plain : Plain menuSelector := {
    comments := by decide +kernel
    blanks := by decide +kernel
    escapes := by decide +kernel
    tokens := tidy }
  exact ⟨parsed, plain, read, three, branches_of_parsed plain read⟩

end Agreement

end CascadeLens.Proofs.SelectorBranches
