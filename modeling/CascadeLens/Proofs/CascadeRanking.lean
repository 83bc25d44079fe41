import CascadeLens.Cascade

/-! The rank of a candidate orders candidates totally: two of them rank the same only if they agree
in everything that decides. Ranking a list puts one of its highest candidates first. -/

namespace CascadeLens
open Std

instance : Ord Specificity := ⟨Specificity.order⟩

instance : TransOrd Specificity :=
  inferInstanceAs (TransCmp (compareLex (compareOn Specificity.inline) (compareLex (compareOn Specificity.ids)
    (compareLex (compareOn Specificity.classes) (compareOn Specificity.elements)))))

instance : TransCmp Specificity.order := inferInstanceAs (TransOrd Specificity)

instance : TransCmp Candidate.order :=
  inferInstanceAs (TransCmp (compareLex (compareOn (·.declaration.important))
    (compareLex (compareOn (·.source.specificity)) (compareLex (compareOn Candidate.fileRank)
      (compareLex (compareOn Candidate.ruleOrder) (compareOn Candidate.index))))))

namespace Proofs.CascadeRanking

theorem specificity_eq_of_order {a b : Specificity} (same : a.order b = .eq) : a = b := by
  cases a
  cases b
  simpa only [Specificity.order, Ordering.then_eq_eq, Std.compare_eq_iff_eq, Specificity.mk.injEq] using same

theorem rank_eq_of_order {a b : Candidate} (same : a.order b = .eq) :
    a.declaration.important = b.declaration.important ∧ a.source.specificity = b.source.specificity ∧
      a.fileRank = b.fileRank ∧ a.ruleOrder = b.ruleOrder ∧ a.index = b.index := by
  simp only [Candidate.order, Ordering.then_eq_eq, Std.compare_eq_iff_eq] at same
  exact ⟨same.1, specificity_eq_of_order same.2.1, same.2.2⟩

/-- The second candidate ranks at least as high as the first. -/
def Below (a b : Candidate) : Prop := (a.order b).isLE

theorem below_refl (a : Candidate) : Below a a := ReflCmp.isLE_rfl

theorem below_trans {a b c : Candidate} (first : Below a b) (second : Below b c) : Below a c :=
  TransCmp.isLE_trans first second

/-- What does not rank lower ranks at least as high. -/
theorem isLE_of_not_lt {α : Type} {cmp : α → α → Ordering} [OrientedCmp cmp] {a b : α}
    (above : cmp a b ≠ .lt) : (cmp b a).isLE := by
  have swap : cmp b a = (cmp a b).swap := OrientedCmp.eq_swap
  rw [swap]
  cases order : cmp a b
  · exact absurd order above
  · rfl
  · rfl

theorem below_antisymm {a b : Candidate} (first : Below a b) (second : Below b a) : a.order b = .eq :=
  OrientedCmp.isLE_antisymm first second

/-- A candidate of a list that no other one of it outranks. -/
def Tops (all : List Candidate) (top : Candidate) : Prop :=
  top ∈ all ∧ ∀ other ∈ all, Below other top

instance (all : List Candidate) (top : Candidate) : Decidable (Tops all top) :=
  inferInstanceAs (Decidable (top ∈ all ∧ ∀ other ∈ all, (other.order top).isLE = true))

theorem ranked_perm (all : List Candidate) : (ranked all).Perm all :=
  List.mergeSort_perm all _

private theorem above_trans (a b c : Candidate) (first : (a.order b != .lt) = true) (second : (b.order c != .lt) = true) :
    (a.order c != .lt) = true := by
  simp only [bne_iff_ne] at first second ⊢
  have reached : Below c a := below_trans (isLE_of_not_lt second) (isLE_of_not_lt first)
  have swap : a.order c = (c.order a).swap := OrientedCmp.eq_swap
  intro less
  rw [less] at swap
  rw [Below, Ordering.swap_eq_lt.mp swap.symm] at reached
  cases reached

private theorem above_total (a b : Candidate) : (a.order b != .lt || b.order a != .lt) = true := by
  have swap : b.order a = (a.order b).swap := OrientedCmp.eq_swap
  rw [swap]
  cases a.order b <;> rfl

theorem ranked_sorted (all : List Candidate) : (ranked all).Pairwise fun a b => Below b a :=
  (List.pairwise_mergeSort above_trans above_total all).imp fun above => isLE_of_not_lt (bne_iff_ne.mp above)

/-- Candidates of one rank stay in the order in which they came. -/
theorem ranked_stable (all : List Candidate) (rank : Candidate) :
    ((ranked all).filter fun item => rank.order item == .eq) = all.filter fun item => rank.order item == .eq := by
  have level : (all.filter fun item => rank.order item == .eq).Pairwise fun a b => (a.order b != .lt) = true := by
    apply List.pairwise_of_forall_mem_list
    intro a first b second
    have same : a.order b = .eq := TransCmp.eq_trans
      (OrientedCmp.eq_symm (beq_iff_eq.mp (List.mem_filter.mp first).2)) (beq_iff_eq.mp (List.mem_filter.mp second).2)
    rw [same]
    rfl
  have inside := (List.sublist_mergeSort above_trans above_total level List.filter_sublist).filter
    fun item => rank.order item == .eq
  simp only [List.filter_filter, Bool.and_self] at inside
  exact (inside.eq_of_length ((ranked_perm all).filter _).length_eq.symm).symm

theorem ranked_head_tops {all : List Candidate} {top : Candidate} (first : (ranked all).head? = some top) :
    Tops all top := by
  obtain ⟨rest, shape⟩ := List.head?_eq_some_iff.mp first
  have sorted := ranked_sorted all
  rw [shape] at sorted
  have member : ∀ other, other ∈ all ↔ other = top ∨ other ∈ rest := fun other => by
    rw [← (ranked_perm all).mem_iff, shape, List.mem_cons]
  refine ⟨(member top).mpr (Or.inl rfl), ?_⟩
  intro other inside
  rcases (member other).mp inside with rfl | later
  · exact below_refl other
  · exact (List.pairwise_cons.mp sorted).1 other later

end Proofs.CascadeRanking

end CascadeLens
