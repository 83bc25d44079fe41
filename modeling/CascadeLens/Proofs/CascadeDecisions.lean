import CascadeLens.Proofs.CascadeArrival

/-! Which properties are decided, between whom and in which order. Every rule that matches and declares a
property stands for it once, with the declaration that counts in its body and the first of its most specific
matches; several such rules make a conflict, which ranks all of them. -/

namespace CascadeLens.Proofs.CascadeDecisions
open Text KeyedFold CascadeRanking CascadeCollapse CascadeArrival

/-- The properties that a rule declares, in turn. -/
def declared (rule : Rule) : List Text := (declarationsOf rule.body).map (·.property)

/-- The declaration of a property that counts in a body: the last important one, or else the last one. -/
def counting (property body : Text) : Option Placed :=
  let own := (placedIn body).filter (·.declaration.property == property)
  (own.filter (·.declaration.important)).getLast?.or own.getLast?

/-- The first of the most specific matches of its rule. -/
def Leads (found : List Match) (top : Match) : Prop :=
  ∃ before after, found = before ++ top :: after ∧
    (∀ other ∈ before, other.rule = top.rule → Specificity.order other.specificity top.specificity = .lt) ∧
    ∀ other ∈ after, other.rule = top.rule → (Specificity.order other.specificity top.specificity).isLE

/-- Two different rules that match declare the property. -/
def Contested (found : List Match) (property : Text) : Prop :=
  ∃ a ∈ found, ∃ b ∈ found, a.rule ≠ b.rule ∧ property ∈ declared a.rule ∧ property ∈ declared b.rule

instance (found : List Match) (property : Text) : Decidable (Contested found property) :=
  inferInstanceAs (Decidable (∃ a ∈ found, ∃ b ∈ found, a.rule ≠ b.rule ∧ property ∈ declared a.rule ∧
    property ∈ declared b.rule))

/-- The same candidates from the highest rank to the lowest, those of one rank in the order in which they came. -/
structure Decides (all ranking : List Candidate) : Prop where
  lossless : ranking.Perm all
  sorted : ranking.Pairwise fun a b => (b.order a).isLE
  stable : ∀ rank : Candidate,
    (ranking.filter fun item => rank.order item == .eq) = all.filter fun item => rank.order item == .eq

section Bodies

variable {property body : Text} {rule : Rule}

private theorem leading_placed (items : List Placed) :
    leading replaces items = (items.filter (·.declaration.important)).getLast?.or items.getLast? := by
  induction items using List.reverseRecOn with
  | nil => rfl
  | append_singleton front next ih =>
    rw [leading_snoc, ih, List.filter_append, List.getLast?_append, List.getLast?_append]
    cases flagged : next.declaration.important with
    | true => cases (front.filter (·.declaration.important)).getLast?.or front.getLast? <;> simp [replaces, flagged]
    | false =>
      -- A weak declaration counts only if no important one came before it.
      cases strong : (front.filter (·.declaration.important)).getLast? with
      | some top =>
        have important := (List.mem_filter.mp (List.mem_of_getLast? strong)).2
        simp [replaces, flagged, important]
      | none =>
        have weak : ∀ item ∈ front, item.declaration.important = false := by simpa using strong
        cases last : front.getLast? with
        | none => simp [flagged]
        | some top => simp [replaces, flagged, weak top (List.mem_of_getLast? last)]

theorem effective_filter (property body : Text) :
    (effective body).filter (·.declaration.property == property) = (counting property body).toList := by
  rw [effective_eq, filter_fold_key, leading_placed]
  rfl

theorem placedIn_properties (rule : Rule) : (placedIn rule.body).map (·.declaration.property) = declared rule := by
  rw [declared, placedIn, List.map_map, ← List.zipIdx_map_fst 0 (declarationsOf rule.body), List.map_map]
  simp [Function.comp_def]

theorem effective_declared (rule : Rule) :
    (effective rule.body).map (·.declaration.property) = distinct (declared rule) := by
  rw [effective_properties, placedIn_properties]

/-- A declaration counts for a property if the rule declares it. -/
theorem counting_isSome : (counting property rule.body).isSome = true ↔ property ∈ declared rule := by
  have kept := effective_filter property rule.body
  rw [← mem_distinct, ← effective_declared, List.mem_map]
  constructor
  · intro counts
    obtain ⟨placed, counted⟩ := Option.isSome_iff_exists.mp counts
    have member : placed ∈ (effective rule.body).filter (·.declaration.property == property) := by
      rw [kept, counted]
      exact List.mem_singleton_self placed
    exact ⟨placed, (List.mem_filter.mp member).1, beq_iff_eq.mp (List.mem_filter.mp member).2⟩
  · rintro ⟨placed, inside, same⟩
    have member : placed ∈ (effective rule.body).filter (·.declaration.property == property) :=
      List.mem_filter.mpr ⟨inside, beq_iff_eq.mpr same⟩
    rw [kept] at member
    exact Option.isSome_of_mem (Option.mem_toList.mp member)

end Bodies

section Leaders

variable {found : List Match} {top : Match}

private theorem leading_match {items : List Match}
    (led : leading (fun first next => Specificity.order first.specificity next.specificity == .lt) items = some top) :
    ∃ before after, items = before ++ top :: after ∧
      (∀ other ∈ before, Specificity.order other.specificity top.specificity = .lt) ∧
      ∀ other ∈ after, (Specificity.order other.specificity top.specificity).isLE := by
  induction items using List.reverseRecOn generalizing top with
  | nil => cases led
  | append_singleton front next ih =>
    rw [leading_snoc] at led
    cases earlier : leading (fun first next => Specificity.order first.specificity next.specificity == .lt) front with
    | none =>
      rw [earlier, Option.elim_none, Option.some.injEq] at led
      subst led
      have nothing : front = [] := by
        cases front using List.reverseRecOn with
        | nil => rfl
        | append_singleton front last => simp [leading_snoc] at earlier
      exact ⟨[], [], by rw [nothing], by simp, by simp⟩
    | some old =>
      obtain ⟨before, after, rfl, below, under⟩ := ih earlier
      rw [earlier, Option.elim_some, Option.some.injEq] at led
      split at led
      next beaten =>
        subst led
        have less := beq_iff_eq.mp beaten
        refine ⟨before ++ old :: after, [], by simp, ?_, by simp⟩
        intro other member
        rcases List.mem_append.mp member with early | late
        · exact Std.TransCmp.lt_trans (below other early) less
        · rcases List.mem_cons.mp late with rfl | later
          · exact less
          · exact Std.TransCmp.lt_of_isLE_of_lt (under other later) less
      next stays =>
        subst led
        refine ⟨before, after ++ [next], by simp, below, ?_⟩
        refine List.forall_mem_append.mpr ⟨under, ?_⟩
        rw [List.forall_mem_singleton]
        exact isLE_of_not_lt (by simpa using stays)

theorem bestMatches_leads (best : top ∈ bestMatches found) : Leads found top := by
  have own : top ∈ (bestMatches found).filter fun item => item.rule == top.rule :=
    List.mem_filter.mpr ⟨best, beq_self_eq_true _⟩
  rw [bestMatches_eq, filter_fold_key, Option.mem_toList] at own
  obtain ⟨before, after, whole, below, under⟩ := leading_match own
  -- The split of the matches of one rule lifts to a split of all matches.
  obtain ⟨front, back, rfl, first, rest⟩ := List.filter_eq_append_iff.mp whole
  obtain ⟨between, last, rfl, apart, -, final⟩ := List.filter_eq_cons_iff.mp rest
  refine ⟨front ++ between, last, by simp, ?_, ?_⟩
  · intro other member same
    rcases List.mem_append.mp member with early | late
    · exact below other (first ▸ List.mem_filter.mpr ⟨early, beq_iff_eq.mpr same⟩)
    · exact absurd (beq_iff_eq.mpr same) (apart other late)
  · intro other member same
    exact under other (final ▸ List.mem_filter.mpr ⟨member, beq_iff_eq.mpr same⟩)

end Leaders

section Groups

variable {found : List Match} {linkOrder : List Text} {property : Text}

/-- The candidates of a property, rule by rule. -/
theorem declaring_eq (found : List Match) (linkOrder : List Text) (property : Text) :
    declaring property (candidates found linkOrder) = (bestMatches found).flatMap fun item =>
      (counting property item.rule.body).toList.map (candidateOf found linkOrder item) := by
  rw [declaring, candidates_eq, List.filter_flatMap]
  apply List.flatMap_congr
  intro item _
  rw [List.filter_map, ← effective_filter]
  rfl

/-- Every rule that declares the property stands for it once, in the order in which the rules first match. -/
theorem declaring_rules (found : List Match) (linkOrder : List Text) (property : Text) :
    (declaring property (candidates found linkOrder)).map (·.source.rule) =
      (distinct (found.map (·.rule))).filter (property ∈ declared ·) := by
  rw [declaring_eq, ← bestMatches_rules]
  generalize bestMatches found = best
  induction best with
  | nil => rfl
  | cons item rest ih =>
    rw [List.flatMap_cons, List.map_append, ih, List.map_cons, List.filter_cons]
    cases counts : counting property item.rule.body with
    | none =>
      have silent : property ∉ declared item.rule := fun member => by
        simpa [counts] using counting_isSome.mpr member
      rw [if_neg (by simpa using silent)]
      rfl
    | some placed =>
      have member : property ∈ declared item.rule := counting_isSome.mp (by rw [counts]; rfl)
      rw [if_pos (decide_eq_true member)]
      rfl

/-- The rules that take part in the decision on a property. -/
def rulesDeclaring (property : Text) (found : List Match) (linkOrder : List Text) : List Rule :=
  (declaring property (candidates found linkOrder)).map (·.source.rule)

theorem nodup_rulesDeclaring (property : Text) (found : List Match) (linkOrder : List Text) :
    (rulesDeclaring property found linkOrder).Nodup :=
  declaring_rules_nodup found linkOrder property

theorem mem_rulesDeclaring {rule : Rule} : rule ∈ rulesDeclaring property found linkOrder ↔
    ∃ item ∈ found, item.rule = rule ∧ property ∈ declared rule := by
  rw [rulesDeclaring, declaring_rules, List.mem_filter, mem_distinct, List.mem_map, decide_eq_true_iff]
  simp only [← and_assoc, exists_and_right]

/-- Several rules take part exactly if two different ones that match declare the property. -/
theorem contested_iff : Contested found property ↔ 2 ≤ (rulesDeclaring property found linkOrder).length := by
  have single := nodup_rulesDeclaring property found linkOrder
  constructor
  · rintro ⟨a, first, b, second, apart, own, own'⟩
    have pair : [a.rule, b.rule].Nodup := by simpa using apart
    have listed : [a.rule, b.rule] ⊆ rulesDeclaring property found linkOrder := by
      simp only [List.cons_subset, List.nil_subset, and_true]
      exact ⟨mem_rulesDeclaring.mpr ⟨a, first, rfl, own⟩, mem_rulesDeclaring.mpr ⟨b, second, rfl, own'⟩⟩
    exact (pair.subperm listed).length_le
  · intro several
    have member : ∀ rule ∈ rulesDeclaring property found linkOrder,
        ∃ item ∈ found, item.rule = rule ∧ property ∈ declared rule := fun _ => mem_rulesDeclaring.mp
    match rules : rulesDeclaring property found linkOrder, several with
    | r :: q :: more, _ =>
      rw [rules] at single member
      obtain ⟨a, first, rfl, own⟩ := member r List.mem_cons_self
      obtain ⟨b, second, rfl, own'⟩ := member q (List.mem_cons_of_mem _ List.mem_cons_self)
      have apart : a.rule ≠ b.rule := List.ne_of_not_mem_cons (List.nodup_cons.mp single).1
      exact ⟨a, first, b, second, apart, own, own'⟩

/-- The properties stand in the order in which the matched rules first declare them. -/
theorem keys_eq (found : List Match) (linkOrder : List Text) :
    (collectDeclarations found linkOrder).map (·.1) = distinct (found.flatMap fun item => declared item.rule) := by
  have keys : (candidates found linkOrder).map (·.declaration.property) =
      (bestMatches found).flatMap fun item => distinct (declared item.rule) := by
    rw [candidates_eq, List.map_flatMap]
    apply List.flatMap_congr
    intro item _
    rw [← effective_declared, List.map_map]
    rfl
  have dropped := distinct_append_flatMap [] declared (found.map (·.rule))
  rw [List.nil_append, List.nil_append, ← bestMatches_rules, List.flatMap_map, List.flatMap_map] at dropped
  rw [collectDeclarations, byProperty, List.map_map, Function.comp_def, List.map_id', keys,
    distinct_flatMap_distinct (fun item : Match => declared item.rule), dropped]

end Groups

section Conflicts

variable {found : List Match} {linkOrder : List Text}

theorem conflict_length {conflict : Conflict} (decided : conflict ∈ resolveConflicts (collectDeclarations found linkOrder)) :
    conflict.losers.length + 1 = (rulesDeclaring conflict.property found linkOrder).length := by
  have ranks := (mem_conflicts.mp decided).1
  have count := (ranked_perm (declaring conflict.property (candidates found linkOrder))).length_eq
  rw [rulesDeclaring, List.length_map, ← count, ranks, List.length_cons]

theorem conflict_of_several {property : Text} (several : 2 ≤ (rulesDeclaring property found linkOrder).length) :
    ∃ conflict ∈ resolveConflicts (collectDeclarations found linkOrder), conflict.property = property := by
  rw [rulesDeclaring, List.length_map, ← (ranked_perm (declaring property (candidates found linkOrder))).length_eq] at several
  match ranks : ranked (declaring property (candidates found linkOrder)), several with
  | winner :: loser :: losers, _ =>
    exact ⟨⟨property, winner, loser :: losers⟩, mem_conflicts.mpr ⟨ranks, List.cons_ne_nil _ _⟩, rfl⟩

/-- A conflict keeps the place of its property among the groups. -/
theorem conflicts_sublist (groups : List (Text × List Candidate)) :
    ((resolveConflicts groups).map (·.property)).Sublist (groups.map (·.1)) := by
  induction groups with
  | nil => exact List.Sublist.refl []
  | cons group rest ih =>
    obtain ⟨property, all⟩ := group
    cases decided : conflictOf? property all with
    | none =>
      have rest' : resolveConflicts ((property, all) :: rest) = resolveConflicts rest := List.filterMap_cons_none decided
      rw [rest']
      exact ih.cons property
    | some conflict =>
      have first : resolveConflicts ((property, all) :: rest) = conflict :: resolveConflicts rest :=
        List.filterMap_cons_some decided
      rw [first, List.map_cons, (conflictOf_eq_some.mp decided).1]
      exact ih.cons_cons property

theorem mem_groups {property : Text} {group : List Candidate} : (property, group) ∈ collectDeclarations found linkOrder ↔
    property ∈ (candidates found linkOrder).map (·.declaration.property) ∧
      declaring property (candidates found linkOrder) = group := by
  simp only [collectDeclarations, byProperty, List.mem_map, mem_distinct, Prod.mk.injEq]
  constructor
  · rintro ⟨_, listed, rfl, rfl⟩
    exact ⟨listed, rfl⟩
  · rintro ⟨listed, rfl⟩
    exact ⟨property, listed, rfl, rfl⟩

theorem group_of_conflict {conflict : Conflict} (decided : conflict ∈ resolveConflicts (collectDeclarations found linkOrder)) :
    (conflict.property, declaring conflict.property (candidates found linkOrder)) ∈ collectDeclarations found linkOrder := by
  have ranks := (mem_conflicts.mp decided).1
  have member : conflict.winner ∈ declaring conflict.property (candidates found linkOrder) :=
    (ranked_perm _).mem_iff.mp (ranks ▸ List.mem_cons_self)
  obtain ⟨inside, same⟩ := mem_declaring.mp member
  exact mem_groups.mpr ⟨List.mem_map.mpr ⟨conflict.winner, inside, same⟩, rfl⟩

/-- The candidate of a rule carries what counts in its body, and is shown with the match that leads. -/
theorem candidate_of_rule {property : Text} {candidate : Candidate}
    (member : candidate ∈ declaring property (candidates found linkOrder)) : Leads found candidate.source ∧
      ∃ placed, counting property candidate.source.rule.body = some placed ∧
        candidate = candidateOf found linkOrder candidate.source placed := by
  rw [declaring_eq] at member
  obtain ⟨item, best, inside⟩ := List.mem_flatMap.mp member
  obtain ⟨placed, counts, rfl⟩ := List.mem_map.mp inside
  exact ⟨bestMatches_leads best, placed, Option.mem_toList.mp counts, rfl⟩

end Conflicts

/-- A property is decided if two different rules that match declare it, in the order in which properties are
first declared. A decision ranks all candidates of its property, those of one rank as they come. There is one
candidate for each rule that declares the property: the declaration that counts in its body, with the first of
its most specific matches. -/
theorem decisions_complete (found : List Match) (linkOrder : List Text) :
    let groups := collectDeclarations found linkOrder
    let decided := resolveConflicts groups
    (∀ property, property ∈ decided.map (·.property) ↔ Contested found property) ∧
    (∀ conflict ∈ decided, ∃ group, (conflict.property, group) ∈ groups ∧
      Decides group (conflict.winner :: conflict.losers)) ∧
    (∀ property group, (property, group) ∈ groups →
      group.map (·.source.rule) = (distinct (found.map (·.rule))).filter (property ∈ declared ·) ∧
      ∀ candidate ∈ group, Leads found candidate.source ∧
        ∃ placed, counting property candidate.source.rule.body = some placed ∧
          candidate = candidateOf found linkOrder candidate.source placed) ∧
    groups.map (·.1) = distinct (found.flatMap fun item => declared item.rule) ∧
    (decided.map (·.property)).Sublist (groups.map (·.1)) := by
  intro groups decided
  refine ⟨?_, ?_, ?_, keys_eq found linkOrder, conflicts_sublist groups⟩
  · intro property
    rw [@contested_iff found linkOrder property, List.mem_map]
    constructor
    · rintro ⟨conflict, member, rfl⟩
      have count := conflict_length member
      have beaten := List.length_pos_iff.mpr (mem_conflicts.mp member).2
      omega
    · exact conflict_of_several
  · intro conflict member
    refine ⟨_, group_of_conflict member, ?_⟩
    rw [← (mem_conflicts.mp member).1]
    exact ⟨ranked_perm _, ranked_sorted _, ranked_stable _⟩
  · intro property group member
    obtain ⟨-, rfl⟩ := mem_groups.mp member
    exact ⟨declaring_rules found linkOrder property, fun _ => candidate_of_rule⟩

/-- A rule with two equally specific selectors that declares a color twice, and two rules of one rank. -/
def navMatches : List Match :=
  let menu : Rule := { selector := ".menu, .nav".toList, body := "color: red !important; top: 0; Color: blue".toList }
  let first : Rule := { selector := ".nav".toList, body := "color: green".toList, startLine := 1 }
  let second : Rule := { selector := ".nav".toList, body := "color: lime".toList, startLine := 2 }
  [⟨".menu".toList, ["class: menu".toList], menu, ⟨0, 0, 1, 0⟩⟩, ⟨".nav".toList, ["class: nav".toList], first, ⟨0, 0, 1, 0⟩⟩,
    ⟨".nav".toList, ["class: nav".toList], menu, ⟨0, 0, 1, 0⟩⟩, ⟨".nav".toList, ["class: nav".toList], second, ⟨0, 0, 1, 0⟩⟩]

theorem color_is_contested : Contested navMatches "color".toList ∧ ¬ Contested navMatches "top".toList ∧
    ∃ conflict ∈ resolveConflicts (collectDeclarations navMatches []), conflict.property = "color".toList ∧
      (∃ group, (conflict.property, group) ∈ collectDeclarations navMatches [] ∧
        Decides group (conflict.winner :: conflict.losers)) ∧ Leads navMatches conflict.winner.source := by
  have contested : Contested navMatches "color".toList := by decide +kernel
  obtain ⟨complete, ranks, rules, -⟩ := decisions_complete navMatches []
  obtain ⟨conflict, member, color⟩ := List.mem_map.mp ((complete _).mpr contested)
  obtain ⟨group, listed, decides⟩ := ranks conflict member
  have inside : conflict.winner ∈ group := decides.lossless.mem_iff.mp List.mem_cons_self
  have leads := ((rules _ group listed).2 conflict.winner inside).1
  exact ⟨contested, by decide +kernel, conflict, member, color, ⟨group, listed, decides⟩, leads⟩

end CascadeLens.Proofs.CascadeDecisions
