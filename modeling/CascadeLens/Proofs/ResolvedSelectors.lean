import CascadeLens.Proofs.FeatureSearch
import CascadeLens.Proofs.NestReading
import CascadeLens.Proofs.ResolverMemo

/-! What becomes of the sign for the parent. Every rule resolves to some selector, and whatever the selectors around
it look like, no sign is left in the answer: each is filled with text that holds none. -/

namespace CascadeLens.Proofs.ResolvedSelectors
open Text NestReading FeatureSearch ResolverMemo

section Texts

variable {mark c : Char} {word s branch parent child : Text}

theorem mem_replace (member : c ∈ replace mark word s) : c ∈ word ∨ c ∈ s ∧ c ≠ mark := by
  obtain ⟨d, inside, own⟩ := List.mem_flatMap.mp member
  split at own
  next => exact Or.inl own
  next other =>
    obtain rfl := List.mem_singleton.mp own
    exact Or.inr ⟨inside, by simpa using other⟩

theorem not_mem_replace (absent : mark ∉ word) : mark ∉ replace mark word s := by
  intro member
  rcases mem_replace member with inside | ⟨-, other⟩
  · exact absent inside
  · exact other rfl

theorem branchesOr_filled (fallback : Text → Text) (s : Text) : branchesOr fallback s ≠ [] := by
  unfold branchesOr
  split
  next => exact List.cons_ne_nil _ _
  next found => exact found

theorem mem_branchesOr {fallback : Text → Text} (shorter : fallback s ⊆ s) (member : branch ∈ branchesOr fallback s)
    (inside : c ∈ branch) : c ∈ s := by
  unfold branchesOr at member
  split at member
  next =>
    obtain rfl := List.mem_singleton.mp member
    exact shorter inside
  next => exact mem_branch member inside

/-- A nested branch is filled with its parent, or stands behind it and had no sign to fill. -/
theorem nest_signless (signless : '&' ∉ parent) : '&' ∉ nest parent child := by
  unfold nest
  split
  next => exact not_mem_replace signless
  next plain =>
    intro member
    rcases List.mem_append.mp member with early | late
    · exact signless early
    · rcases List.mem_cons.mp late with space | own
      · exact absurd space (by decide)
      · exact plain (List.contains_iff_mem.mpr own)

end Texts

section Rules

variable {parents : List Text} {selector text : Text}

theorem fanOut_filled (filled : parents ≠ []) (selector : Text) : fanOut parents selector ≠ [] := by
  obtain ⟨first, others, rfl⟩ := List.exists_cons_of_ne_nil filled
  obtain ⟨parent, outer⟩ := List.exists_mem_of_ne_nil _ (branchesOr_filled id first)
  obtain ⟨child, own⟩ := List.exists_mem_of_ne_nil _ (branchesOr_filled trim selector)
  have member : nest parent child ∈ fanOut (first :: others) selector := by
    apply List.mem_flatMap.mpr
    exact ⟨parent, List.mem_flatMap.mpr ⟨first, List.mem_cons_self, outer⟩, List.mem_map_of_mem own⟩
  exact List.ne_nil_of_mem member

theorem fanOut_signless (signless : ∀ parent ∈ parents, '&' ∉ parent) (member : text ∈ fanOut parents selector) :
    '&' ∉ text := by
  obtain ⟨parent, outer, nested⟩ := List.mem_flatMap.mp member
  obtain ⟨child, _, rfl⟩ := List.mem_map.mp nested
  obtain ⟨whole, listed, branch⟩ := List.mem_flatMap.mp outer
  apply nest_signless
  intro inside
  exact signless whole listed (mem_branchesOr (List.Subset.refl whole) branch inside)

/-- From the outermost rule inwards: there is a selector, and none has a sign. -/
theorem variants_signless (own : StyleBlock) (outer : List StyleBlock) :
    variants own outer ≠ [] ∧ ∀ text ∈ variants own outer, '&' ∉ text := by
  induction outer generalizing own with
  | nil =>
    refine ⟨List.cons_ne_nil _ _, ?_⟩
    intro text member
    obtain rfl := List.mem_singleton.mp member
    exact not_mem_replace (by decide)
  | cons parent outer ih =>
    obtain ⟨filled, signless⟩ := ih parent
    exact ⟨fanOut_filled filled own.selector, fun text member => fanOut_signless signless member⟩

/-- Whatever a resolver was asked before, a rule resolves to one selector or more, and neither a selector nor its
expanded form holds a sign for the parent. -/
theorem resolved_signless (bound : Int) (steps : List ResolverStep) (rule : Rule) :
    ((resolverAfter bound steps).resolve rule).1 ≠ [] ∧
      ∀ resolved ∈ ((resolverAfter bound steps).resolve rule).1, '&' ∉ resolved.text ∧ '&' ∉ resolved.expanded := by
  obtain ⟨filled, signless⟩ := variants_signless rule.toStyleBlock rule.outer
  rw [resolve_after]
  refine ⟨fun none => filled (List.map_eq_nil_iff.mp none), ?_⟩
  intro resolved member
  obtain ⟨text, listed, rfl⟩ := List.mem_map.mp member
  refine ⟨signless text listed, ?_⟩
  intro expanded
  rcases mem_expand expanded with space | inside
  · exact absurd space (by decide)
  · exact signless text listed inside

/-- Blank selectors, signs in quotes and behind backslashes, and brackets that are never closed. -/
example : (Rule.variants ⟨{ selector := " & , \\&\"&".toList }, [{ selector := ":not(&".toList }, { selector := "&,&".toList }]⟩) =
    [":not(:scope".toList, "\\:not(:scope\":not(:scope".toList, ":not(:scope".toList, "\\:not(:scope\":not(:scope".toList] := by
  decide +kernel

end Rules

end CascadeLens.Proofs.ResolvedSelectors
