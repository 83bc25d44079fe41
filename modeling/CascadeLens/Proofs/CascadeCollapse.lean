import CascadeLens.Proofs.CascadeRanking
import CascadeLens.Proofs.KeyedFold
import Mathlib.Data.List.Basic
import Mathlib.Data.List.Nodup

/-! Before candidates are ranked, the matches of a rule are reduced to one and so are the declarations
of a property in a body. Neither reduction can drop a winner: what is dropped lies below what stays,
and rules apart from each other never rank the same. -/

namespace CascadeLens.Proofs.CascadeCollapse
open Text KeyedFold CascadeRanking

def fileRank (found : List Match) (linkOrder : List Text) (item : Match) : Nat :=
  rankIn (fileRanks (found.map (·.rule.source)) linkOrder) item.rule.source

def candidateOf (found : List Match) (linkOrder : List Text) (item : Match) (placed : Placed) : Candidate :=
  ⟨placed.declaration, item, fileRank found linkOrder item, item.rule.order, placed.index⟩

def placedIn (body : Text) : List Placed :=
  (declarationsOf body).zipIdx.map fun (declaration, index) => ⟨declaration, index⟩

/-- Every declaration of every match, with nothing reduced. -/
def allCandidates (found : List Match) (linkOrder : List Text) : List Candidate :=
  found.flatMap fun item => (placedIn item.rule.body).map (candidateOf found linkOrder item)

def declaring (property : Text) (all : List Candidate) : List Candidate :=
  all.filter (·.declaration.property == property)

/-- Different rules stand at different places of the cascade. -/
def Separate (found : List Match) (linkOrder : List Text) : Prop :=
  ∀ a ∈ found, ∀ b ∈ found, a.rule ≠ b.rule →
    (fileRank found linkOrder a, a.rule.order) ≠ (fileRank found linkOrder b, b.rule.order)

instance (found : List Match) (linkOrder : List Text) : Decidable (Separate found linkOrder) :=
  inferInstanceAs (Decidable (∀ a ∈ found, ∀ b ∈ found, a.rule ≠ b.rule →
    (fileRank found linkOrder a, a.rule.order) ≠ (fileRank found linkOrder b, b.rule.order)))

private theorem putMatch_eq (kept : List Match) (next : Match) :
    putMatch kept next = put (·.rule) (fun first next => Specificity.order first.specificity next.specificity == .lt)
      kept next := by
  induction kept with
  | nil => rfl
  | cons first rest ih => simp only [putMatch, put, ih]

theorem bestMatches_eq (found : List Match) : bestMatches found =
    found.foldl (put (·.rule) fun first next => Specificity.order first.specificity next.specificity == .lt) [] := by
  simp only [bestMatches, funext₂ putMatch_eq]

theorem bestMatches_rules (found : List Match) :
    (bestMatches found).map (·.rule) = distinct (found.map (·.rule)) := by
  rw [bestMatches_eq, map_key_fold]

theorem bestMatches_filter (chosen : Rule → Bool) (found : List Match) :
    (bestMatches found).filter (fun item => chosen item.rule) = bestMatches (found.filter fun item => chosen item.rule) := by
  rw [bestMatches_eq, bestMatches_eq]
  exact filter_fold _ _ chosen found

theorem bestMatches_member {found : List Match} {item : Match} (member : item ∈ bestMatches found) :
    item ∈ found := by
  rw [bestMatches_eq] at member
  exact (member_of_fold _ _ member).resolve_left (by simp)

theorem bestMatches_dominate {found : List Match} {item : Match} (member : item ∈ found) :
    ∃ best ∈ bestMatches found, best.rule = item.rule ∧
      (Specificity.order item.specificity best.specificity).isLE := by
  rw [bestMatches_eq]
  apply fold_dominates _ _ fun a b : Match => (Specificity.order a.specificity b.specificity).isLE
  · exact fun _ => Std.ReflCmp.isLE_rfl
  · exact Std.TransCmp.isLE_trans
  · apply List.pairwise_of_forall
    intro a b
    unfold Agrees
    split
    next less => simp only [beq_iff_eq.mp less, Ordering.isLE_lt]
    next notLess => exact isLE_of_not_lt (by simpa using notLess)
  · exact member

/-- Importance decides between the declarations of a property in one body, then the position. -/
def placedOrder : Placed → Placed → Ordering :=
  compareLex (compareOn (·.declaration.important)) (compareOn Placed.index)

instance : Std.TransCmp placedOrder :=
  inferInstanceAs (Std.TransCmp (compareLex _ _))

/-- A later declaration of a property takes the place of an earlier one unless only that is important. -/
def replaces (first next : Placed) : Bool := !(first.declaration.important && !next.declaration.important)

private theorem putDeclaration_eq (kept : List Placed) (next : Placed) :
    putDeclaration kept next = put (·.declaration.property) replaces kept next := by
  induction kept with
  | nil => rfl
  | cons first rest ih =>
    simp only [putDeclaration, put, replaces, ih]
    by_cases stays : (first.declaration.important && !next.declaration.important) = true
    · simp only [stays, if_true, Bool.not_true, Bool.false_eq_true, if_false]
    · simp only [Bool.not_eq_true _ ▸ stays, Bool.not_false, Bool.false_eq_true, if_true, if_false]

theorem effective_eq (body : Text) :
    effective body = (placedIn body).foldl (put (·.declaration.property) replaces) [] := by
  simp only [effective, placedIn, funext₂ putDeclaration_eq]

theorem effective_properties (body : Text) :
    (effective body).map (·.declaration.property) = distinct ((placedIn body).map (·.declaration.property)) := by
  rw [effective_eq, map_key_fold]

theorem effective_member {body : Text} {placed : Placed} (member : placed ∈ effective body) :
    placed ∈ placedIn body := by
  rw [effective_eq] at member
  exact (member_of_fold _ _ member).resolve_left (by simp)

private theorem placedIn_indices (body : Text) :
    (placedIn body).map (·.index) = List.range' 0 (declarationsOf body).length := by
  rw [placedIn, List.map_map, ← List.zipIdx_map_snd 0 (declarationsOf body)]
  rfl

private theorem placedIn_increasing (body : Text) : (placedIn body).Pairwise (·.index < ·.index) := by
  rw [← List.pairwise_map (f := Placed.index) (R := (· < ·)), placedIn_indices]
  exact List.pairwise_lt_range'

theorem placed_at_index {body : Text} {a b : Placed} (first : a ∈ placedIn body) (second : b ∈ placedIn body)
    (same : a.index = b.index) : a = b := by
  have nodup : ((placedIn body).map (·.index)).Nodup := by
    rw [placedIn_indices]
    exact List.nodup_range'
  exact List.inj_on_of_nodup_map nodup first second same

/-- The declaration that is kept for a property is important if one of its property is, and no later
one of the same importance is dropped for it. -/
theorem effective_dominate {body : Text} {placed : Placed} (member : placed ∈ placedIn body) :
    ∃ kept ∈ effective body, kept.declaration.property = placed.declaration.property ∧
      (placedOrder placed kept).isLE := by
  rw [effective_eq]
  apply fold_dominates _ _ fun a b => (placedOrder a b).isLE
  · exact fun _ => Std.ReflCmp.isLE_rfl
  · exact Std.TransCmp.isLE_trans
  · refine (placedIn_increasing body).imp ?_
    intro first next before
    have less : compare first.index next.index = .lt := Nat.compare_eq_lt.mpr before
    unfold Agrees replaces placedOrder compareLex compareOn
    cases old : first.declaration.important <;> cases new : next.declaration.important <;>
      simp only [old, new, less] <;> rfl
  · exact member

theorem fileRanks_bestMatches (found : List Match) (linkOrder : List Text) :
    fileRanks ((bestMatches found).map (·.rule.source)) linkOrder =
      fileRanks (found.map (·.rule.source)) linkOrder := by
  have sources : (bestMatches found).map (·.rule.source) =
      (distinct (found.map (·.rule))).map (·.source) := by
    rw [← bestMatches_rules, List.map_map]
    rfl
  rw [fileRanks, fileRanks, sources, distinct_append_map, List.map_map]
  rfl

theorem candidates_eq (found : List Match) (linkOrder : List Text) : candidates found linkOrder =
    (bestMatches found).flatMap fun item => (effective item.rule.body).map (candidateOf found linkOrder item) := by
  simp only [candidates, fileRanks_bestMatches]
  rfl

theorem mem_allCandidates {found : List Match} {linkOrder : List Text} {candidate : Candidate} :
    candidate ∈ allCandidates found linkOrder ↔ ∃ item ∈ found, ∃ placed ∈ placedIn item.rule.body,
      candidateOf found linkOrder item placed = candidate := by
  simp only [allCandidates, List.mem_flatMap, List.mem_map]

theorem mem_candidates {found : List Match} {linkOrder : List Text} {candidate : Candidate} :
    candidate ∈ candidates found linkOrder ↔ ∃ item ∈ bestMatches found, ∃ placed ∈ effective item.rule.body,
      candidateOf found linkOrder item placed = candidate := by
  simp only [candidates_eq, List.mem_flatMap, List.mem_map]

/-- The reductions only drop candidates. -/
theorem candidates_subset {found : List Match} {linkOrder : List Text} {candidate : Candidate}
    (member : candidate ∈ candidates found linkOrder) : candidate ∈ allCandidates found linkOrder := by
  obtain ⟨item, best, placed, kept, rfl⟩ := mem_candidates.mp member
  exact mem_allCandidates.mpr ⟨item, bestMatches_member best, placed, effective_member kept, rfl⟩

private theorem candidate_below {found : List Match} {linkOrder : List Text} {item best : Match} {placed kept : Placed}
    (sameRule : best.rule = item.rule) (specific : (Specificity.order item.specificity best.specificity).isLE)
    (stronger : (placedOrder placed kept).isLE) :
    Below (candidateOf found linkOrder item placed) (candidateOf found linkOrder best kept) := by
  have rank : fileRank found linkOrder item = fileRank found linkOrder best := by simp only [fileRank, sameRule]
  simp only [Below, Candidate.order, candidateOf, rank, sameRule, Std.compare_self, Ordering.eq_then]
  simp only [placedOrder, compareLex, compareOn, Ordering.isLE_then_iff_and] at stronger ⊢
  exact ⟨stronger.1, stronger.2.imp_right fun later => ⟨specific, Or.inr later⟩⟩

/-- What is dropped lies below a candidate of its rule and property that stays. -/
theorem candidates_dominate {found : List Match} {linkOrder : List Text} {candidate : Candidate}
    (member : candidate ∈ allCandidates found linkOrder) :
    ∃ kept ∈ candidates found linkOrder, kept.declaration.property = candidate.declaration.property ∧
      Below candidate kept := by
  obtain ⟨item, inside, placed, declared, rfl⟩ := mem_allCandidates.mp member
  obtain ⟨best, chosen, sameRule, specific⟩ := bestMatches_dominate inside
  obtain ⟨kept, stays, sameProperty, stronger⟩ := effective_dominate declared
  refine ⟨candidateOf found linkOrder best kept, ?_, sameProperty, candidate_below sameRule specific stronger⟩
  exact mem_candidates.mpr ⟨best, chosen, kept, sameRule ▸ stays, rfl⟩

theorem candidates_apart (found : List Match) (linkOrder : List Text) :
    (candidates found linkOrder).Pairwise fun a b =>
      ¬(a.source.rule = b.source.rule ∧ a.declaration.property = b.declaration.property) := by
  have rules : ((bestMatches found).map (·.rule)).Nodup := by
    rw [bestMatches_rules]
    exact nodup_distinct _
  rw [candidates_eq, List.pairwise_flatMap]
  constructor
  · intro item _
    have properties : ((effective item.rule.body).map (·.declaration.property)).Nodup := by
      rw [effective_properties]
      exact nodup_distinct _
    rw [List.pairwise_map]
    exact (List.pairwise_map.mp properties).imp fun different same => different same.2
  · refine (List.pairwise_map.mp rules).imp ?_
    intro first second different a inFirst b inSecond same
    obtain ⟨_, _, rfl⟩ := List.mem_map.mp inFirst
    obtain ⟨_, _, rfl⟩ := List.mem_map.mp inSecond
    exact different same.1

theorem declaring_rules_nodup (found : List Match) (linkOrder : List Text) (property : Text) :
    ((declaring property (candidates found linkOrder)).map (·.source.rule)).Nodup := by
  rw [List.Nodup, List.pairwise_map]
  refine ((candidates_apart found linkOrder).filter _).imp_of_mem ?_
  intro a b inFirst inSecond apart same
  have first := beq_iff_eq.mp (List.mem_filter.mp inFirst).2
  have second := beq_iff_eq.mp (List.mem_filter.mp inSecond).2
  exact apart ⟨same, first.trans second.symm⟩

theorem mem_declaring {property : Text} {all : List Candidate} {candidate : Candidate} :
    candidate ∈ declaring property all ↔ candidate ∈ all ∧ candidate.declaration.property = property := by
  simp only [declaring, List.mem_filter, beq_iff_eq]

/-- What stands under a property: nothing, or all candidates that declare it. -/
theorem collectDeclarations_lookup (found : List Match) (linkOrder : List Text) (property : Text) :
    (collectDeclarations found linkOrder).lookup property =
      if property ∈ (candidates found linkOrder).map (·.declaration.property) then
        some (declaring property (candidates found linkOrder))
      else none := by
  unfold collectDeclarations byProperty
  split
  next present => exact List.lookup_graph _ (mem_distinct.mpr present)
  next absent =>
    rw [List.lookup_eq_none_iff]
    intro entry member
    obtain ⟨other, inside, rfl⟩ := List.mem_map.mp member
    apply bne_iff_ne.mpr
    rintro rfl
    exact absent (mem_distinct.mp inside)

/-- Candidates of the same rank come from one declaration of one rule. -/
theorem same_of_order {found : List Match} {linkOrder : List Text} (separate : Separate found linkOrder)
    {a b : Candidate} (first : a ∈ allCandidates found linkOrder) (second : b ∈ allCandidates found linkOrder)
    (same : a.order b = .eq) : a.source.rule = b.source.rule ∧ a.declaration = b.declaration := by
  obtain ⟨item, inside, placed, declared, rfl⟩ := mem_allCandidates.mp first
  obtain ⟨other, inside', placed', declared', rfl⟩ := mem_allCandidates.mp second
  obtain ⟨-, -, sameRank, sameOrder, sameIndex⟩ := rank_eq_of_order same
  have sameRule : item.rule = other.rule := by
    by_contra different
    exact separate item inside other inside' different (Prod.ext sameRank sameOrder)
  have body : item.rule.body = other.rule.body := by rw [sameRule]
  exact ⟨sameRule, congrArg Placed.declaration (placed_at_index declared (body ▸ declared') sameIndex)⟩

theorem key_iff_declared (found : List Match) (linkOrder : List Text) (property : Text) :
    property ∈ (candidates found linkOrder).map (·.declaration.property) ↔
      ∃ candidate ∈ allCandidates found linkOrder, candidate.declaration.property = property := by
  rw [List.mem_map]
  constructor
  · rintro ⟨candidate, member, same⟩
    exact ⟨candidate, candidates_subset member, same⟩
  · rintro ⟨candidate, member, rfl⟩
    obtain ⟨kept, stays, same, -⟩ := candidates_dominate member
    exact ⟨kept, stays, same⟩

/-- A candidate that tops those kept for a property tops all of them. -/
theorem tops_all {found : List Match} {linkOrder : List Text} {property : Text} {winner : Candidate}
    (tops : Tops (declaring property (candidates found linkOrder)) winner) :
    Tops (declaring property (allCandidates found linkOrder)) winner := by
  obtain ⟨member, same⟩ := mem_declaring.mp tops.1
  refine ⟨mem_declaring.mpr ⟨candidates_subset member, same⟩, ?_⟩
  intro other inside
  obtain ⟨declared, otherSame⟩ := mem_declaring.mp inside
  obtain ⟨kept, stays, keptSame, above⟩ := candidates_dominate declared
  exact below_trans above (tops.2 kept (mem_declaring.mpr ⟨stays, keptSame.trans otherSame⟩))

/-- The candidates of a property are there if some match declares it, at most one for each rule, and
ranking them finds a candidate that no declaration of any match outranks. Whatever else is not
outranked is the same declaration of the same rule. -/
theorem collapse_keeps_winner (found : List Match) (linkOrder : List Text) (separate : Separate found linkOrder)
    (property : Text) :
    (((collectDeclarations found linkOrder).lookup property).isSome ↔
      ∃ candidate ∈ allCandidates found linkOrder, candidate.declaration.property = property) ∧
    ∀ group, (collectDeclarations found linkOrder).lookup property = some group →
      (group.map (·.source.rule)).Nodup ∧
      ∃ winner, (ranked group).head? = some winner ∧
        Tops (declaring property (allCandidates found linkOrder)) winner ∧
        ∀ top, Tops (declaring property (allCandidates found linkOrder)) top →
          top.source.rule = winner.source.rule ∧ top.declaration = winner.declaration ∧
          top.source.specificity = winner.source.specificity ∧ top.index = winner.index := by
  rw [collectDeclarations_lookup, ← key_iff_declared]
  split
  next present =>
    refine ⟨iff_of_true rfl present, ?_⟩
    rintro group ⟨⟩
    refine ⟨declaring_rules_nodup found linkOrder property, ?_⟩
    obtain ⟨candidate, member, same⟩ := List.mem_map.mp present
    have inhabited : ranked (declaring property (candidates found linkOrder)) ≠ [] :=
      List.ne_nil_of_mem ((ranked_perm _).mem_iff.mpr (mem_declaring.mpr ⟨member, same⟩))
    obtain ⟨winner, first⟩ := Option.isSome_iff_exists.mp (List.isSome_head?.mpr inhabited)
    have wins := tops_all (ranked_head_tops first)
    refine ⟨winner, first, wins, ?_⟩
    intro top tops
    have equal := below_antisymm (wins.2 top tops.1) (tops.2 winner wins.1)
    have ⟨sameRule, sameDeclaration⟩ :=
      same_of_order separate (mem_declaring.mp tops.1).1 (mem_declaring.mp wins.1).1 equal
    obtain ⟨-, specific, -, -, position⟩ := rank_eq_of_order equal
    exact ⟨sameRule, sameDeclaration, specific, position⟩
  next absent => exact ⟨iff_of_false (by simp) absent, fun group impossible => nomatch impossible⟩

/-- A rule that two of its selectors match and that declares a color twice, and a more specific rule
of another stylesheet. -/
def menuMatches : List Match :=
  let menu : Rule :=
    { selector := ".menu, #top .menu".toList, body := "color: red !important; Color: blue".toList,
      source := "a.css".toList }
  let opened : Rule := { selector := "#top .menu.open".toList, body := "color: green".toList, source := "b.css".toList }
  [⟨".menu".toList, ["class: menu".toList], menu, ⟨0, 0, 1, 0⟩⟩,
    ⟨"#top .menu.open".toList, ["class: menu".toList], opened, ⟨0, 1, 2, 0⟩⟩,
    ⟨"#top .menu".toList, ["class: menu".toList], menu, ⟨0, 1, 1, 0⟩⟩]

theorem menu_color_is_red : Separate menuMatches [] ∧
    ∃ group winner, (collectDeclarations menuMatches []).lookup "color".toList = some group ∧
      (ranked group).head? = some winner ∧ winner.declaration.value = "red".toList ∧
      winner.source.specificity = ⟨0, 1, 1, 0⟩ := by
  have separate : Separate menuMatches [] := by decide
  have ⟨listed, decided⟩ := collapse_keeps_winner menuMatches [] separate "color".toList
  obtain ⟨group, found⟩ := Option.isSome_iff_exists.mp (listed.mpr (by decide))
  obtain ⟨-, winner, first, -, unique⟩ := decided group found
  have tops : ∃ top, Tops (declaring "color".toList (allCandidates menuMatches [])) top ∧
      top.declaration.value = "red".toList ∧ top.source.specificity = ⟨0, 1, 1, 0⟩ :=
    ⟨(allCandidates menuMatches []).get ⟨3, by decide⟩, by decide, by decide, by decide⟩
  obtain ⟨top, highest, value, specific⟩ := tops
  obtain ⟨-, sameDeclaration, sameSpecificity, -⟩ := unique top highest
  exact ⟨separate, group, winner, found, first, sameDeclaration ▸ value, sameSpecificity ▸ specific⟩

end CascadeLens.Proofs.CascadeCollapse
