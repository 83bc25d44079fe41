import CascadeLens.Proofs.SheetSteps

/-! What a prelude opens: a plain selector a style block, the sign and the name of an at-rule a group
or a block that is passed over. -/

namespace CascadeLens.Proofs.SheetPreludes
open Text TextShape SheetWriting SheetSteps

theorem plain_kept {s : Text} (plain : Plain s) : Kept s where
  filled := plain.filled
  trimmed := plain.words ▸ spaced_trimmed s
  bare := plain.bare
  parens := plain.parens
  last := plain.last

theorem plain_no_newline {s : Text} (plain : Plain s) : '\n' ∉ s := by
  intro member
  have blank : '\n' = ' ' := blank_in_spaced (plain.words.symm ▸ member) (by decide)
  cases blank

/-- No character of a name takes part in the structure of a sheet. -/
theorem name_char_bare {c : Char} (letter : isNameChar c = true) :
    c ∉ '(' :: ')' :: '#' :: '\n' :: '\x7b' :: '\x7d' :: ';' :: masking := by
  intro member
  have silent : ∀ c ∈ '(' :: ')' :: '#' :: '\n' :: '\x7b' :: '\x7d' :: ';' :: masking, isNameChar c = false := by decide
  rw [silent c member] at letter
  cases letter

theorem kept_join {s t : Text} (first : Kept s) (second : Kept t) : Kept (s ++ ' ' :: t) where
  filled := by simp
  trimmed := by
    refine ⟨fun c found => first.trimmed.first c ?_, fun c found => second.trimmed.last c ?_⟩
    · rwa [List.head?_append_of_ne_nil _ first.filled] at found
    · rwa [List.getLast?_append_of_ne_nil _ (by simp), List.getLast?_cons_of_ne_nil second.filled] at found
  bare := by
    intro c member
    rcases List.mem_append.mp member with before | behind
    · exact first.bare c before
    rcases List.mem_cons.mp behind with rfl | after
    · decide
    · exact second.bare c after
  parens := by
    rw [Paired, balanceFrom_append, first.parens]
    exact second.parens
  last := by
    rw [List.getLast?_append_of_ne_nil _ (by simp), List.getLast?_cons_of_ne_nil second.filled]
    exact second.last

section Openings

variable {rule : AtRule}

theorem sign_kept (spelled : Spelled rule) : Kept ('@' :: rule.name) where
  filled := by simp
  trimmed := by
    refine ⟨fun c found => ?_, fun c found => ?_⟩
    · obtain rfl := Option.some.inj found
      decide
    · rw [List.getLast?_cons_of_ne_nil spelled.named] at found
      exact not_blank_of_isNameChar (spelled.letters c (List.mem_of_getLast? found))
  bare := by
    intro c member
    rcases List.mem_cons.mp member with rfl | inside
    · decide
    · have bare := name_char_bare (spelled.letters c inside)
      simp only [List.mem_cons, not_or] at bare ⊢
      tauto
  parens := by
    refine balanceFrom_flat (fun c member => ?_) 0
    rcases List.mem_cons.mp member with rfl | inside
    · decide
    · have bare := name_char_bare (spelled.letters c inside)
      simp only [List.mem_cons, not_or] at bare
      exact ⟨bare.1, bare.2.1⟩
  last := by
    intro hash
    rw [List.getLast?_cons_of_ne_nil spelled.named] at hash
    exact name_char_bare (spelled.letters _ (List.mem_of_getLast? hash)) (by decide)

theorem opening_kept (spelled : Spelled rule) : Kept (opening rule) := by
  unfold opening
  split
  next => simpa using sign_kept spelled
  next filled => exact kept_join (sign_kept spelled) (plain_kept (spelled.params.resolve_left filled))

theorem opening_no_newline (spelled : Spelled rule) : '\n' ∉ opening rule := by
  intro member
  have name : '\n' ∉ rule.name := fun inside => name_char_bare (spelled.letters _ inside) (by decide)
  unfold opening at member
  split at member
  next => simp [name] at member
  next filled =>
    have params := plain_no_newline (spelled.params.resolve_left filled)
    simp [name, params] at member

/-- The at-rule an opening spells is known by its name in lower case. -/
theorem atRuleOf_opening (spelled : Spelled rule) :
    ∃ behind, opening rule = '@' :: behind ∧ atRuleOf behind = known rule := by
  refine ⟨rule.name ++ (if rule.params = [] then [] else ' ' :: rule.params), rfl, ?_⟩
  have tail : (if rule.params = [] then [] else ' ' :: rule.params).takeWhile isNameChar = [] := by
    split
    · rfl
    · exact List.takeWhile_cons_of_neg (by decide)
  have name : (rule.name ++ (if rule.params = [] then [] else ' ' :: rule.params)).takeWhile isNameChar = rule.name := by
    rw [List.takeWhile_append_of_pos spelled.letters, tail, List.append_nil]
  have params : spaced (if rule.params = [] then [] else ' ' :: rule.params) = rule.params := by
    split
    next empty => rw [empty]; rfl
    next filled => rw [spaced_cons_space, (spelled.params.resolve_left filled).words]
  simp [atRuleOf, name, params, spelled.named, known]

variable {level : Level} {start here : Place} {count : Nat}

theorem inner_selector (first : (trim level.item.reverse).head? ≠ some '@') (here : Place) (count : Nat) :
    level.inner here count =
      { kind := .style (spaced (trim level.item.reverse)) count, atRules := level.atRules,
        start := level.itemStart.getD here } := by
  simp only [Level.inner]
  split
  next behind same => exact absurd (congrArg List.head? same) first
  next => rfl

theorem inner_style {selector : Text} (plain : Plain selector) (word : selector.head? ≠ some '@') :
    (holding level start selector).inner here count =
      { kind := .style selector count, atRules := level.atRules, start } := by
  have whole := @trim_holding level _ (plain_kept plain) start
  rw [inner_selector (by rwa [whole]), whole, plain.words]
  rfl

private theorem named_iff {names : List String} :
    names.any (·.toList == (known rule).name) = true ↔ Named names rule := by
  simp [Named, known]

theorem inner_group (spelled : Spelled rule) (group : Named groupNames rule) :
    (holding level start (opening rule)).inner here count =
      { kind := if level.inStyle then .nestedGroup count else .group, atRules := level.atRules ++ [known rule], start } := by
  obtain ⟨behind, sign, same⟩ := atRuleOf_opening spelled
  have whole := @trim_holding level _ (opening_kept spelled) start
  rw [sign] at whole ⊢
  have other : ¬ Named ("property" :: keyframesNames) rule := by
    have apart : ∀ name ∈ "property" :: keyframesNames, ∀ other ∈ groupNames, name.toList ≠ other.toList := by decide
    rintro ⟨name, kept, spelt⟩
    obtain ⟨other, member, same⟩ := group
    exact apart name kept other member (spelt.trans same.symm)
  simp only [Level.inner, whole, same]
  rw [if_neg (named_iff.not.mpr other), if_pos (named_iff.mpr group)]
  rfl

theorem inner_block (spelled : Spelled rule) (other : ¬ Named groupNames rule) :
    (holding level start (opening rule)).inner here count =
      { kind := .passed 0 (if Named ("property" :: keyframesNames) rule then some (known rule) else none),
        atRules := level.atRules, start } := by
  obtain ⟨behind, sign, same⟩ := atRuleOf_opening spelled
  have whole := @trim_holding level _ (opening_kept spelled) start
  rw [sign] at whole ⊢
  simp only [Level.inner, whole, same]
  by_cases kept : Named ("property" :: keyframesNames) rule
  · rw [if_pos (named_iff.mpr kept), if_pos kept]
    rfl
  · rw [if_neg (named_iff.not.mpr kept), if_neg (named_iff.not.mpr other), if_neg kept]
    rfl

end Openings

end CascadeLens.Proofs.SheetPreludes
