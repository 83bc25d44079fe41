import CascadeLens.Proofs.CascadeCollapse
import Mathlib

/-! The order in which matches arrive decides nothing but which of several equally specific selectors
of a rule is shown. What a rule contributes does not depend on its place among the matches, and the
rank of its stylesheet comes from the page, so both runs sort the same candidates by a total order. -/

namespace CascadeLens.Proofs.CascadeArrival
open Text KeyedFold CascadeRanking CascadeCollapse

/-- A match without the selector it is shown with. -/
def unnamed (item : Match) : Match := { item with selector := [], reasons := [] }

/-- A candidate without the selector it is shown with: what is declared, by which rule, and its rank. -/
def plain (candidate : Candidate) : Candidate := { candidate with source := unnamed candidate.source }

/-- The page links the stylesheet of every match. -/
def Linked (found : List Match) (linkOrder : List Text) : Prop := ∀ item ∈ found, item.rule.source ∈ linkOrder

instance (found : List Match) (linkOrder : List Text) : Decidable (Linked found linkOrder) :=
  inferInstanceAs (Decidable (∀ item ∈ found, item.rule.source ∈ linkOrder))

/-- Different rules of one stylesheet have different numbers. -/
def Numbered (found : List Match) : Prop :=
  ∀ a ∈ found, ∀ b ∈ found, a.rule ≠ b.rule → a.rule.source = b.rule.source → a.rule.order ≠ b.rule.order

instance (found : List Match) : Decidable (Numbered found) :=
  inferInstanceAs (Decidable (∀ a ∈ found, ∀ b ∈ found, a.rule ≠ b.rule → a.rule.source = b.rule.source →
    a.rule.order ≠ b.rule.order))

section Ranks

variable {found : List Match} {linkOrder names : List Text}

def linkRank (linkOrder : List Text) (name : Text) : Nat := rankIn (distinct linkOrder).zipIdx name

private theorem distinct_append (front items : List Text) : ∃ more, distinct (front ++ items) = distinct front ++ more := by
  induction items using List.reverseRecOn with
  | nil => exact ⟨[], by simp⟩
  | append_singleton items next ih =>
    obtain ⟨more, same⟩ := ih
    rw [← List.append_assoc, distinct_append_singleton]
    split
    · exact ⟨more, same⟩
    · exact ⟨more ++ [next], by rw [same, List.append_assoc]⟩

private theorem lookup_zipIdx {items : List Text} {name : Text} (member : name ∈ items) :
    ∃ position, items.zipIdx.lookup name = some position ∧ items[position]? = some name := by
  obtain ⟨position, inside⟩ := List.mem_iff_getElem?.mp member
  have listed : (name, position) ∈ items.zipIdx := List.mem_zipIdx_iff_getElem?.mpr inside
  cases found : items.zipIdx.lookup name with
  | none => exact absurd (List.lookup_eq_none_iff.mp found (name, position) listed) (by simp)
  | some first =>
    obtain ⟨before, after, whole, -⟩ := List.lookup_eq_some_iff.mp found
    have among : (name, first) ∈ items.zipIdx := by simp [whole]
    exact ⟨first, rfl, List.mem_zipIdx_iff_getElem?.mp among⟩

/-- Stylesheets that the page does not link rank behind, so they do not move those it links. -/
theorem rankIn_fileRanks {name : Text} (linked : name ∈ linkOrder) (names : List Text) :
    rankIn (fileRanks names linkOrder) name = linkRank linkOrder name := by
  obtain ⟨more, same⟩ := distinct_append linkOrder names
  obtain ⟨position, first, -⟩ := lookup_zipIdx (mem_distinct.mpr linked)
  rw [fileRanks, linkRank, same, rankIn, rankIn, List.zipIdx_append, List.lookup_append, first]
  rfl

theorem linkRank_injective {a b : Text} (first : a ∈ linkOrder) (second : b ∈ linkOrder)
    (same : linkRank linkOrder a = linkRank linkOrder b) : a = b := by
  obtain ⟨position, found, inside⟩ := lookup_zipIdx (mem_distinct.mpr first)
  obtain ⟨other, found', inside'⟩ := lookup_zipIdx (mem_distinct.mpr second)
  rw [linkRank, linkRank, rankIn, rankIn, found, found'] at same
  obtain rfl : position = other := same
  exact Option.some.inj (inside.symm.trans inside')

theorem separate_of_numbered (linked : Linked found linkOrder) (numbered : Numbered found) : Separate found linkOrder := by
  intro a first b second different same
  obtain ⟨rank, order⟩ := Prod.mk.inj same
  rw [fileRank, fileRank, rankIn_fileRanks (linked a first), rankIn_fileRanks (linked b second)] at rank
  exact numbered a first b second different (linkRank_injective (linked a first) (linked b second) rank) order

end Ranks

section Runs

variable {found found' : List Match} {linkOrder : List Text}

private theorem best_unique {a b : Match} (first : a ∈ bestMatches found) (second : b ∈ bestMatches found)
    (same : a.rule = b.rule) : a = b := by
  have nodup : ((bestMatches found).map (·.rule)).Nodup := by
    rw [bestMatches_rules]
    exact nodup_distinct _
  exact List.inj_on_of_nodup_map nodup first second same

/-- The best match of a rule is as specific as any, so another order of the same matches finds one
that differs at most in its selector. -/
private theorem best_again (perm : found.Perm found') {item : Match} (best : item ∈ bestMatches found) :
    unnamed item ∈ (bestMatches found').map unnamed := by
  obtain ⟨other, chosen, sameRule, above⟩ := bestMatches_dominate (perm.mem_iff.mp (bestMatches_member best))
  obtain ⟨back, again, sameRule', above'⟩ := bestMatches_dominate (perm.mem_iff.mpr (bestMatches_member chosen))
  obtain rfl : back = item := best_unique again best (sameRule'.trans sameRule)
  have specific : other.specificity = back.specificity :=
    specificity_eq_of_order (Std.OrientedCmp.isLE_antisymm above' above)
  exact List.mem_map.mpr ⟨other, chosen, by simp [unnamed, sameRule, specific]⟩

private theorem unnamed_nodup (found : List Match) : ((bestMatches found).map unnamed).Nodup := by
  apply List.Nodup.of_map (·.rule)
  have same : ((bestMatches found).map unnamed).map (·.rule) = distinct (found.map (·.rule)) := by
    rw [List.map_map, ← bestMatches_rules]
    rfl
  rw [same]
  exact nodup_distinct _

theorem bestMatches_perm (perm : found.Perm found') :
    ((bestMatches found).map unnamed).Perm ((bestMatches found').map unnamed) := by
  apply (List.perm_ext_iff_of_nodup (unnamed_nodup found) (unnamed_nodup found')).mpr
  intro item
  constructor
  · intro member
    obtain ⟨best, chosen, rfl⟩ := List.mem_map.mp member
    exact best_again perm chosen
  · intro member
    obtain ⟨best, chosen, rfl⟩ := List.mem_map.mp member
    exact best_again perm.symm chosen

private theorem plain_candidates (linked : Linked found linkOrder) :
    (candidates found linkOrder).map plain = ((bestMatches found).map unnamed).flatMap fun item =>
      (effective item.rule.body).map fun placed =>
        ⟨placed.declaration, item, linkRank linkOrder item.rule.source, item.rule.order, placed.index⟩ := by
  rw [candidates_eq, List.map_flatMap, List.flatMap_map]
  apply List.flatMap_congr
  intro item best
  rw [List.map_map]
  apply List.map_congr_left
  intro placed _
  have rank := rankIn_fileRanks (linked item (bestMatches_member best)) (found.map (·.rule.source))
  simp only [Function.comp_apply, plain, candidateOf, fileRank, rank]
  rfl

theorem candidates_perm (perm : found.Perm found') (linked : Linked found linkOrder) :
    ((candidates found linkOrder).map plain).Perm ((candidates found' linkOrder).map plain) := by
  have linked' : Linked found' linkOrder := fun item member => linked item (perm.mem_iff.mpr member)
  rw [plain_candidates linked, plain_candidates linked']
  exact (bestMatches_perm perm).flatMap_right _

theorem declaring_perm (perm : found.Perm found') (linked : Linked found linkOrder) (property : Text) :
    ((declaring property (candidates found linkOrder)).map plain).Perm
      ((declaring property (candidates found' linkOrder)).map plain) := by
  have filtered := (candidates_perm perm linked).filter (·.declaration.property == property)
  rwa [List.filter_map, List.filter_map] at filtered

/-- Candidates that rank the same differ at most in the selector that is shown. -/
theorem plain_eq_of_order (separate : Separate found linkOrder) {a b : Candidate} (first : a ∈ candidates found linkOrder)
    (second : b ∈ candidates found linkOrder) (same : a.order b = .eq) : plain a = plain b := by
  obtain ⟨rule, declaration⟩ := same_of_order separate (candidates_subset first) (candidates_subset second) same
  obtain ⟨-, specific, rank, order, position⟩ := rank_eq_of_order same
  simp [plain, unnamed, rule, declaration, specific, rank, order, position]

/-- Both runs rank the same candidates in the same order. -/
theorem ranked_alike (perm : found.Perm found') (linked : Linked found linkOrder) (numbered : Numbered found)
    (property : Text) :
    (ranked (declaring property (candidates found linkOrder))).map plain =
      (ranked (declaring property (candidates found' linkOrder))).map plain := by
  have sorted : ∀ all : List Candidate, ((ranked all).map plain).Pairwise fun a b => Below b a := by
    intro all
    -- The rank of a candidate does not look at its selector.
    exact List.pairwise_map.mpr (ranked_sorted all)
  have same : ((ranked (declaring property (candidates found linkOrder))).map plain).Perm
      ((ranked (declaring property (candidates found' linkOrder))).map plain) :=
    (((ranked_perm _).map plain).trans (declaring_perm perm linked property)).trans ((ranked_perm _).map plain).symm
  refine List.Perm.eq_of_pairwise ?_ (sorted _) (sorted _) same
  intro a b inFirst inSecond above below
  have origin : ∀ c ∈ (ranked (declaring property (candidates found linkOrder))).map plain,
      ∃ candidate ∈ candidates found linkOrder, plain candidate = c := by
    intro c member
    obtain ⟨candidate, inside, rfl⟩ := List.mem_map.mp member
    exact ⟨candidate, (mem_declaring.mp ((ranked_perm _).mem_iff.mp inside)).1, rfl⟩
  obtain ⟨first, member, rfl⟩ := origin a inFirst
  obtain ⟨second, member', rfl⟩ := origin b (same.mem_iff.mpr inSecond)
  exact plain_eq_of_order (separate_of_numbered linked numbered) member member' (below_antisymm below above)

end Runs

theorem conflictOf_eq_some {property : Text} {all : List Candidate} {conflict : Conflict} :
    conflictOf? property all = some conflict ↔
      conflict.property = property ∧ ranked all = conflict.winner :: conflict.losers ∧ conflict.losers ≠ [] := by
  unfold conflictOf?
  obtain ⟨name, winner, losers⟩ := conflict
  split
  next first second rest shape =>
    rw [shape]
    simp only [Option.some.injEq, Conflict.mk.injEq, List.cons.injEq]
    constructor
    · rintro ⟨rfl, rfl, rfl⟩
      exact ⟨rfl, ⟨rfl, rfl⟩, List.cons_ne_nil _ _⟩
    · rintro ⟨rfl, ⟨rfl, rfl⟩, -⟩
      exact ⟨rfl, rfl, rfl⟩
  next single =>
    constructor
    · intro none
      cases none
    · rintro ⟨-, shape, more⟩
      obtain ⟨second, rest, rfl⟩ := List.exists_cons_of_ne_nil more
      exact absurd shape (single winner second rest)

/-- A property is in conflict if several candidates declare it, which are then ranked. -/
theorem mem_conflicts {found : List Match} {linkOrder : List Text} {conflict : Conflict} :
    conflict ∈ resolveConflicts (collectDeclarations found linkOrder) ↔
      ranked (declaring conflict.property (candidates found linkOrder)) = conflict.winner :: conflict.losers ∧
        conflict.losers ≠ [] := by
  simp only [resolveConflicts, collectDeclarations, byProperty, List.mem_filterMap, List.mem_map, Prod.exists,
    Prod.mk.injEq]
  constructor
  · rintro ⟨_, _, ⟨property, _, rfl, rfl⟩, decided⟩
    obtain ⟨rfl, shape⟩ := conflictOf_eq_some.mp decided
    exact shape
  · intro shape
    refine ⟨_, _, ⟨conflict.property, ?_, rfl, rfl⟩, conflictOf_eq_some.mpr ⟨rfl, shape⟩⟩
    have member : conflict.winner ∈ ranked (declaring conflict.property (candidates found linkOrder)) := by
      rw [shape.1]
      exact List.mem_cons_self
    obtain ⟨inside, same⟩ := mem_declaring.mp ((ranked_perm _).mem_iff.mp member)
    exact mem_distinct.mpr (List.mem_map.mpr ⟨conflict.winner, inside, same⟩)

theorem conflict_again {found found' : List Match} {linkOrder : List Text} (perm : found.Perm found')
    (linked : Linked found linkOrder) (numbered : Numbered found) {conflict : Conflict}
    (decided : conflict ∈ resolveConflicts (collectDeclarations found linkOrder)) :
    ∃ other ∈ resolveConflicts (collectDeclarations found' linkOrder), other.property = conflict.property := by
  obtain ⟨shape, more⟩ := mem_conflicts.mp decided
  have alike := ranked_alike perm linked numbered conflict.property
  rw [shape, List.map_cons] at alike
  obtain ⟨winner, losers, shape', -, beaten⟩ := List.map_eq_cons_iff.mp alike.symm
  refine ⟨⟨conflict.property, winner, losers⟩, mem_conflicts.mpr ⟨shape', ?_⟩, rfl⟩
  rintro rfl
  exact more (List.map_eq_nil_iff.mp beaten.symm)

/-- Matches that arrive in another order leave the same properties in conflict, and each of them is
decided the same way: the winner and its losers in turn are the same declarations of the same rules,
with the same ranks. -/
theorem arrival_decides_nothing (found found' : List Match) (perm : found.Perm found') (linkOrder : List Text)
    (linked : Linked found linkOrder) (numbered : Numbered found) :
    let decided := resolveConflicts (collectDeclarations found linkOrder)
    let decided' := resolveConflicts (collectDeclarations found' linkOrder)
    (∀ property, property ∈ decided.map (·.property) ↔ property ∈ decided'.map (·.property)) ∧
      ∀ a ∈ decided, ∀ b ∈ decided', a.property = b.property →
        plain a.winner = plain b.winner ∧ a.losers.map plain = b.losers.map plain := by
  have linked' : Linked found' linkOrder := fun item member => linked item (perm.mem_iff.mpr member)
  have numbered' : Numbered found' := fun a first b second =>
    numbered a (perm.mem_iff.mpr first) b (perm.mem_iff.mpr second)
  refine ⟨?_, ?_⟩
  · intro property
    constructor
    · intro member
      obtain ⟨conflict, decided, rfl⟩ := List.mem_map.mp member
      exact List.mem_map.mpr (conflict_again perm linked numbered decided)
    · intro member
      obtain ⟨conflict, decided, rfl⟩ := List.mem_map.mp member
      exact List.mem_map.mpr (conflict_again perm.symm linked' numbered' decided)
  · intro a first b second same
    have alike := ranked_alike perm linked numbered a.property
    have shape := (mem_conflicts.mp second).1
    rw [← same] at shape
    rw [(mem_conflicts.mp first).1, shape] at alike
    exact List.cons.inj alike

/-- Two equally specific selectors of one rule, around a rule of another stylesheet. -/
def arrivals : List Match :=
  let menu : Rule := { selector := ".menu, .nav".toList, body := "color: red; top: 0".toList, source := "b.css".toList }
  let opened : Rule := { selector := ".open".toList, body := "color: green".toList, source := "a.css".toList }
  [⟨".menu".toList, ["class: menu".toList], menu, ⟨0, 0, 1, 0⟩⟩, ⟨".open".toList, ["class: open".toList], opened, ⟨0, 0, 1, 0⟩⟩,
    ⟨".nav".toList, ["class: nav".toList], menu, ⟨0, 0, 1, 0⟩⟩]

/-- The order in which the page loads their stylesheets. -/
def loads : List Text := ["a.css".toList, "b.css".toList]

def verdict (conflict : Conflict) : Text × Text × Text :=
  (conflict.property, conflict.winner.declaration.value, conflict.winner.source.selector)

theorem later_sheet_wins : arrivals.Perm arrivals.reverse ∧ Linked arrivals loads ∧ Numbered arrivals ∧
    ∃ a ∈ resolveConflicts (collectDeclarations arrivals loads),
      ∃ b ∈ resolveConflicts (collectDeclarations arrivals.reverse loads),
        verdict a = ("color".toList, "red".toList, ".menu".toList) ∧
          verdict b = ("color".toList, "red".toList, ".nav".toList) ∧ plain a.winner = plain b.winner := by
  have perm : arrivals.Perm arrivals.reverse := (List.reverse_perm arrivals).symm
  have linked : Linked arrivals loads := by decide
  have numbered : Numbered arrivals := by decide
  obtain ⟨-, same⟩ := arrival_decides_nothing arrivals arrivals.reverse perm loads linked numbered
  have first : (resolveConflicts (collectDeclarations arrivals loads)).map verdict =
      [("color".toList, "red".toList, ".menu".toList)] := by cbv
  have second : (resolveConflicts (collectDeclarations arrivals.reverse loads)).map verdict =
      [("color".toList, "red".toList, ".nav".toList)] := by cbv
  obtain ⟨a, decided, shown⟩ := List.mem_map.mp (first ▸ List.mem_cons_self)
  obtain ⟨b, decided', shown'⟩ := List.mem_map.mp (second ▸ List.mem_cons_self)
  have property : a.property = b.property := (congrArg Prod.fst shown).trans (congrArg Prod.fst shown').symm
  exact ⟨perm, linked, numbered, a, decided, b, decided', shown, shown', (same a decided b decided' property).1⟩

end CascadeLens.Proofs.CascadeArrival
