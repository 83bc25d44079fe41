import CascadeLens.Proofs.ResolverMemo
import CascadeLens.Proofs.SelectorComposition
import CascadeLens.Proofs.EscapedClass

/-! A nested selector is put behind its parent with a blank between the two. What both count for adds up, unless the
escape that ends the parent takes the blank in: the name behind it is then no type of its own. -/

namespace CascadeLens.Proofs.DescendantNesting
open Text hiding Unfinished
open Selector SelectorNames SelectorLexing SelectorReading SelectorEscapes SelectorLexemes SelectorBranches SelectorSeams
  SelectorRereading SelectorComposition

section Readers

variable {base list last : Unfinished} {outer : List (ListFunction × Unfinished)} {token : Token} {start begun : Branch}
  {tokens others : List Token} {branch first : Branch} {before after : List Branch}

/-- No step but the end of an outermost branch looks at the list that goes on. -/
theorem onto_step (inner : ¬ (outer.length = 0 ∧ token = .comma)) :
    (onto base [] list outer).step? token =
      (Reader.step? ⟨list, outer⟩ token).map fun next => onto base [] next.list next.outer := by
  cases token with
  | simple part => cases outer <;> rfl
  | combinator => cases outer <;> rfl
  | enter function => rfl
  | comma =>
    cases outer with
    | nil => exact absurd ⟨rfl, rfl⟩ inner
    | cons opener outer =>
      by_cases empty : list.items.isEmpty = true
      all_goals simp [onto, Reader.step?, Unfinished.endBranch?, empty]
  | close =>
    cases outer with
    | nil => rfl
    | cons opener outer =>
      obtain ⟨function, host⟩ := opener
      simp only [onto, Reader.step?, Option.map_map]
      cases outer <;> rfl

theorem run_under (before : List Branch) (list : Unfinished) (outer : List (ListFunction × Unfinished)) :
    tokens.foldlM Reader.step? (under before list outer) =
      (tokens.foldlM Reader.step? ⟨list, outer⟩).map fun next => under before next.list next.outer := by
  induction tokens generalizing list outer with
  | nil => rfl
  | cons token tokens ih =>
    rw [List.foldlM_cons, List.foldlM_cons, step_under]
    cases Reader.step? ⟨list, outer⟩ token with
    | none => rfl
    | some next => exact ih next.list next.outer

theorem finish_iff {branches : List Branch} :
    list.finish? = some branches ↔ list.items ≠ [] ∧ branches = list.branches.reverse ++ [list.items.reverse] := by
  constructor
  · intro finished
    obtain ⟨done, ending, rfl⟩ := Option.map_eq_some_iff.mp finished
    obtain ⟨filled, rfl⟩ := ended_branch ending
    exact ⟨filled, List.reverse_cons⟩
  · rintro ⟨filled, rfl⟩
    simp [Unfinished.finish?, Unfinished.endBranch?, filled]

/-- Behind the end of a branch tokens are read for themselves. -/
theorem run_behind (run : tokens.foldlM Reader.step? ⟨⟨[], before⟩, []⟩ = some ⟨last, []⟩) :
    ∃ rest, last = ⟨last.items, rest ++ before⟩ ∧
      ∀ before, tokens.foldlM Reader.step? ⟨⟨[], before⟩, []⟩ = some ⟨⟨last.items, rest ++ before⟩, []⟩ := by
  have apart : tokens.foldlM Reader.step? (under before {} []) = some ⟨last, []⟩ := run
  rw [run_under] at apart
  obtain ⟨⟨rest, around⟩, behind, same⟩ := Option.map_eq_some_iff.mp apart
  cases around with
  | cons opener around => cases congrArg Reader.outer same
  | nil =>
    obtain rfl : (⟨rest.items, rest.branches ++ before⟩ : Unfinished) = last := congrArg Reader.list same
    refine ⟨rest.branches, rfl, fun before => ?_⟩
    have onward := @run_under tokens before {} []
    rw [behind] at onward
    exact onward

/-- What tokens make of a branch that has begun they make of any other: they go on with it and have further ones
behind it. -/
theorem run_alike (fresh : ended list outer = [])
    (run : tokens.foldlM Reader.step? (onto ⟨start, []⟩ [] list outer) = some ⟨last, []⟩)
    (finished : last.finish? = some (first :: after)) :
    ∃ items, first = start.reverse ++ items ∧ ∀ begun before, (start = [] ∨ begun ≠ []) → ∃ later : Unfinished,
      tokens.foldlM Reader.step? (onto ⟨begun, before⟩ [] list outer) = some ⟨later, []⟩ ∧
        later.finish? = some (before.reverse ++ (begun.reverse ++ items) :: after) := by
  have filled' : ∀ {items begun : Branch}, items ++ start ≠ [] → (start = [] ∨ begun ≠ []) → items ++ begun ≠ [] := by
    rintro items begun filled (rfl | left)
    · exact List.append_ne_nil_of_left_ne_nil (by simpa using filled) _
    · exact List.append_ne_nil_of_right_ne_nil _ left
  obtain ⟨left, whole⟩ := finish_iff.mp finished
  induction tokens generalizing list outer with
  | nil =>
    cases outer with
    | cons opener outer => cases run
    | nil =>
      have none : list.branches = [] := fresh
      obtain rfl : ⟨list.items ++ start, list.branches ++ []⟩ = last := congrArg Reader.list (Option.some.inj run)
      simp only [none, List.append_nil, List.reverse_nil, List.nil_append, List.cons.injEq, List.reverse_append] at whole
      obtain ⟨rfl, rfl⟩ := whole
      refine ⟨list.items.reverse, rfl, fun begun before kept => ⟨_, rfl, ?_⟩⟩
      exact finish_iff.mpr ⟨filled' left kept, by simp [none]⟩
  | cons token tokens ih =>
    rw [List.foldlM_cons, Option.bind_eq_bind, Option.bind_eq_some_iff] at run
    obtain ⟨reader, stepped, run⟩ := run
    by_cases comma : outer.length = 0 ∧ token = .comma
    · obtain ⟨flat, rfl⟩ := comma
      obtain rfl := List.length_eq_zero_iff.mp flat
      have none : list.branches = [] := fresh
      obtain ⟨done, ending, rfl⟩ := Option.map_eq_some_iff.mp stepped
      obtain ⟨filled, rfl⟩ := ended_branch ending
      obtain ⟨rest, same, behind⟩ := run_behind run
      rw [same] at whole
      simp only [onto, none, List.reverse_append, List.reverse_cons, List.reverse_nil, List.nil_append, List.cons_append,
        List.cons.injEq] at whole
      obtain ⟨rfl, rfl⟩ := whole
      -- The branch that had begun ends here, and no later token looks at it.
      refine ⟨list.items.reverse, rfl, fun begun before kept => ?_⟩
      refine ⟨⟨last.items, rest ++ (list.items ++ begun).reverse :: before⟩, ?_, finish_iff.mpr ⟨left, by simp⟩⟩
      have ends : (onto ⟨begun, before⟩ [] list []).step? .comma =
          some ⟨⟨[], (list.items ++ begun).reverse :: before⟩, []⟩ := by
        simp [onto, Reader.step?, Unfinished.endBranch?, none, filled' filled kept]
      rw [List.foldlM_cons, ends]
      exact behind _
    · rw [onto_step comma] at stepped
      obtain ⟨next, alone, rfl⟩ := Option.map_eq_some_iff.mp stepped
      obtain ⟨items, rfl, same⟩ := ih ((step_kept alone comma).trans fresh) run
      refine ⟨items, rfl, fun begun before kept => ?_⟩
      rw [List.foldlM_cons, onto_step comma, alone]
      exact same begun before kept

theorem ofTokens_last : ofTokens? tokens = some (before ++ [branch]) ↔
    branch ≠ [] ∧ tokens.foldlM Reader.step? {} = some ⟨⟨branch.reverse, before.reverse⟩, []⟩ := by
  constructor
  · intro read
    obtain ⟨⟨items, branches⟩, run, filled, whole⟩ := ofTokens_run read
    obtain ⟨rfl, same⟩ := List.append_inj' whole rfl
    obtain rfl := List.singleton_inj.mp same
    exact ⟨by simpa using filled, by rw [run, List.reverse_reverse, List.reverse_reverse]⟩
  · rintro ⟨filled, run⟩
    rw [ofTokens?, run]
    exact finish_iff.mpr ⟨by simpa using filled, by simp⟩

theorem ofTokens_of_run (run : tokens.foldlM Reader.step? {} = some ⟨list, []⟩) : ofTokens? tokens = list.finish? := by
  rw [ofTokens?, run]

/-- Branches behind others go on with the last of them. -/
theorem ofTokens_append (read : ofTokens? tokens = some (before ++ [branch]))
    (later : ofTokens? others = some (first :: after)) :
    ofTokens? (tokens ++ others) = some (before ++ (branch ++ first) :: after) := by
  obtain ⟨-, run⟩ := ofTokens_last.mp read
  obtain ⟨last, onward, left, whole⟩ := ofTokens_run later
  obtain ⟨items, rfl, same⟩ := @run_alike {} last [] [] others first after rfl onward (finish_iff.mpr ⟨left, whole⟩)
  obtain ⟨joined, run', finished⟩ := same branch.reverse before.reverse (Or.inl rfl)
  have reached : (tokens ++ others).foldlM Reader.step? {} = some ⟨joined, []⟩ := by
    rw [List.foldlM_append, run]
    exact run'
  simpa [ofTokens_of_run reached] using finished

/-- So they do without a simple selector in front, which is then missing there. -/
theorem ofTokens_append_tail {part : Simple} (read : ofTokens? tokens = some (before ++ [branch]))
    (later : ofTokens? (.simple part :: others) = some (first :: after)) :
    ∃ items, first = .simple part :: items ∧ ofTokens? (tokens ++ others) = some (before ++ (branch ++ items) :: after) := by
  obtain ⟨filled, run⟩ := ofTokens_last.mp read
  obtain ⟨last, onward, left, whole⟩ := ofTokens_run later
  obtain ⟨items, rfl, same⟩ :=
    @run_alike {} last [] [.simple part] others first after rfl onward (finish_iff.mpr ⟨left, whole⟩)
  obtain ⟨joined, run', finished⟩ := same branch.reverse before.reverse (Or.inr (by simpa using filled))
  have reached : (tokens ++ others).foldlM Reader.step? {} = some ⟨joined, []⟩ := by
    rw [List.foldlM_append, run]
    exact run'
  exact ⟨items, rfl, by simpa [ofTokens_of_run reached] using finished⟩

/-- A last simple selector that counts for the same changes nothing that counts. -/
theorem ofTokens_alike_last (alike : Alike tokens others) (read : ofTokens? tokens = some (before ++ [branch])) :
    ∃ before' similar, ofTokens? others = some (before' ++ [similar]) ∧ weights before' = weights before ∧
      branchWeight similar = branchWeight branch := by
  have counts := ofTokens_similar (similar_of_alike alike)
  rw [read, Option.map_some, List.map_append] at counts
  obtain ⟨branches, read', same⟩ := Option.map_eq_some_iff.mp counts.symm
  obtain ⟨before', last, rfl, front, back⟩ := List.map_eq_append_iff.mp same
  obtain ⟨similar, rest, rfl, weight, none⟩ := List.map_eq_cons_iff.mp back
  obtain rfl := List.map_eq_nil_iff.mp none
  exact ⟨before', similar, read', by rw [weights_map, weights_map, front], weight⟩

end Readers

/-- A blank behind a text is taken in by the escape at its end, and is no blank then. -/
def TakesBlank (s : Text) : Prop := tokens? (s ++ [' ']) ≠ tokens? s

instance (s : Text) : Decidable (TakesBlank s) := inferInstanceAs (Decidable (_ ≠ _))

/-- The name in front of a text goes on with the one at the end of another, across the blank between them. -/
def Merges (p q : Text) : Prop := TakesBlank p ∧ nameLength q ≠ 0

instance (p q : Text) : Decidable (Merges p q) := inferInstanceAs (Decidable (_ ∧ _))

section Texts

variable {s p q : Text} {tokens more : List Token} {last first : Branch} {before after : List Branch}

theorem still_blank (content : Text) : Still content [' '] := fun _ _ closed => absurd closed (by decide)

theorem tokens_lone_blank : tokens? [' '] = some [] := by
  rw [tokens_blank (by simp), tokens?]

theorem keeps_blank (read : tokens? s = some tokens) (stays : Stays s tokens) : ¬ TakesBlank s := by
  have whole := stays [' '] (seam_space []) (Or.inr fun _ _ content _ => still_blank content)
  rw [tokens_lone_blank, Option.map_some, List.append_nil] at whole
  exact not_not.mpr (whole.trans read.symm)

theorem takes_blank (read : tokens? s = some tokens) (takes : TakesIn s tokens) : TakesBlank s := by
  obtain ⟨others, -, apart, whole⟩ :=
    takes.grown ' ' [] (seam_space []) (Or.inr fun _ _ content _ => still_blank content) (by decide)
  rw [List.drop_nil, tokens?, Option.map_some, List.append_nil] at whole
  rw [TakesBlank, whole, read]
  exact fun same => apart (Option.some.inj same)

theorem name_first {c : Char} {rest : Text} (named : nameLength (c :: rest) ≠ 0) : c = '\\' ∨ isLetter c = true := by
  by_contra other
  rw [not_or] at other
  simp only [isLetter] at other
  simp [nameLength.eq_def, other] at named

theorem identifierLength_eq (filled : identifierLength s ≠ 0) : identifierLength s = nameLength s := by
  have word := word_of_length filled
  have length := word.length.trans word.own.length.symm
  rwa [List.take_append_drop] at length

/-- A name in front of a text is its first type. -/
theorem leading_name (ascii : ∀ c, s.head? = some c → isBlank c = true → isAscii c = true) (named : nameLength s ≠ 0)
    (read : tokens? s = some tokens) :
    ∃ name rest, tokens = .simple (.typeName name) :: rest ∧ tokens? (s.drop (nameLength s)) = some rest := by
  cases s with
  | nil => exact absurd (by rw [nameLength]) named
  | cons c rest =>
    have silent : '\\' ∉ marks.drop 3 ∧ isBlank '\\' = false ∧ '\\' ≠ '/' := by decide
    have apart : c ∉ marks.drop 3 ∧ isBlank c = false ∧ c ≠ '/' := by
      rcases name_first named with rfl | letter
      · exact silent
      · have none : ∀ d ∈ '/' :: marks.drop 3, isLetter d = false := by decide
        refine ⟨fun mark => ?_, letter_not_blank (ascii c rfl) letter, ?_⟩
        · exact absurd ((none c (List.mem_cons_of_mem _ mark)).symm.trans letter) (by decide)
        · rintro rfl
          exact absurd ((none '/' List.mem_cons_self).symm.trans letter) (by decide)
    have gap : gapLength (c :: rest) = 0 := gapLength_solid fun d first => Option.some.inj first ▸ apart.2
    have found := token_other apart.1 rest
    split at found
    next =>
      rw [tokens?] at read
      simp [gap, found] at read
    next length size =>
      have same : nameLength (c :: rest) = length + 1 := by
        exact (identifierLength_eq (by rw [size]; exact Nat.succ_ne_zero length)).symm.trans size
      rw [tokens_token gap found] at read
      obtain ⟨more, later, rfl⟩ := Option.map_eq_some_iff.mp read
      exact ⟨_, more, rfl, by rw [same, List.drop_succ_cons, later]⟩

/-- What a parent and a selector nested in it count for together, branch by branch. -/
structure Joined (p q : Text) (before : List Branch) (last first : Branch) (after : List Branch) : Prop where
  weighs : Weighs (p ++ ' ' :: q) (Specificity.greatest (weights before ++
    (branchWeight last + branchWeight (if Merges p q then first.tail else first)) :: weights after))
  merged : Merges p q → branchWeight first = .oneElement + branchWeight first.tail

theorem joined (own : SelectorComposition.Reading p tokens (before ++ [last]))
    (later : SelectorComposition.Reading q more (first :: after))
    (ascii : ∀ c, q.head? = some c → isBlank c = true → isAscii c = true) (shut : Shut p tokens (' ' :: q)) :
    Joined p q before last first after := by
  have solid := blank_append own.solid (' ' :: q)
  have weighed : ∀ {others : List Token} {before' : List Branch} {similar added : Branch},
      tokens? (p ++ ' ' :: q) = some others → ofTokens? others = some (before' ++ (similar ++ added) :: after) →
      weights before' = weights before → branchWeight similar = branchWeight last →
      Weighs (p ++ ' ' :: q) (Specificity.greatest (weights before ++
        (branchWeight last + branchWeight added) :: weights after)) := by
    intro others before' similar added lexical read front weight
    have weighs := SelectorComposition.Reading.weighs ⟨solid, lexical, read⟩
    rwa [weights_map, List.map_append, ← weights_map, front, List.map_cons, ← weights_map, branchWeight_append,
      weight] at weighs
  -- The blank between them is a combinator, or it belongs to the last name of `p`, and what begins `q` to that name too.
  rcases tokens_behind own.lexical with stays | takes
  · have apart : ¬ Merges p q := fun merges => keeps_blank own.lexical stays merges.1
    have whole := stays (' ' :: q) (seam_space q) shut
    rw [tokens_blank ascii, later.lexical] at whole
    refine ⟨?_, fun merges => absurd merges apart⟩
    rw [if_neg apart]
    exact weighed whole (ofTokens_append own.read later.read) rfl rfl
  · have taken := takes_blank own.lexical takes
    obtain ⟨others, alike, -, whole⟩ := takes.grown ' ' q (seam_space q) shut (by decide)
    obtain ⟨before', similar, read, front, weight⟩ := ofTokens_alike_last alike own.read
    by_cases named : nameLength q = 0
    · have apart : ¬ Merges p q := fun merges => merges.2 named
      rw [named, List.drop_zero, later.lexical] at whole
      refine ⟨?_, fun merges => absurd merges apart⟩
      rw [if_neg apart]
      exact weighed whole (ofTokens_append read later.read) front weight
    · obtain ⟨name, rest, rfl, onward⟩ := leading_name ascii named later.lexical
      rw [onward] at whole
      obtain ⟨items, rfl, read'⟩ := ofTokens_append_tail read later.read
      refine ⟨?_, fun _ => by rw [branchWeight, Item.weight, Simple.weight, List.tail_cons]⟩
      rw [if_pos ⟨taken, named⟩]
      exact weighed whole read' front weight

/-- A text that is read as a selector list and cut into one piece, which is all of it. -/
structure Nestable (s : Text) : Prop where
  single : branches s = [s]
  listed : (parse? s).isSome = true
  unsigned : '&' ∉ s
  blanks : ∀ c ∈ s, isBlank c = true → isAscii c = true

/-- What becomes of a selector that is nested in another one. -/
structure Nests (p q : Text) : Prop where
  resolved : ∀ (bound : Int) (steps : List ResolverMemo.ResolverStep) (own parent : StyleBlock), own.selector = q →
    parent.selector = p → ((ResolverMemo.resolverAfter bound steps).resolve ⟨own, [parent]⟩).1 = [.ofText (p ++ ' ' :: q)]
  counts : ∃ before last first after, parse? p = some (before ++ [last]) ∧ parse? q = some (first :: after) ∧
    Joined p q before last first after
  sum : Single p → Single q →
    specificity (p ++ ' ' :: q) + (if Merges p q then .oneElement else .zero) = specificity p + specificity q

theorem resolved_nested (parent : Nestable p) (child : Nestable q) (own outer : StyleBlock) (same : own.selector = q)
    (same' : outer.selector = p) : variants own [outer] = [p ++ ' ' :: q] := by
  rw [variants, variants, same, same', EscapedClass.atRoot_eq_self parent.unsigned]
  simp [fanOut, branchesOr, parent.single, child.single, nest, child.unsigned]

/-- A nested selector counts for what it and its parent count for together, but for a type whose name goes on with
that of the parent. -/
theorem nested_weighs (parent : Nestable p) (child : Nestable q)
    (shut : ∀ tokens ∈ tokens? p, Shut p tokens (' ' :: q)) : Nests p q := by
  obtain ⟨branches, listed⟩ := Option.isSome_iff_exists.mp parent.listed
  obtain ⟨branches', listed'⟩ := Option.isSome_iff_exists.mp child.listed
  obtain ⟨tokens, own⟩ := reading_of_listed listed
  obtain ⟨more, later⟩ := reading_of_listed listed'
  have ascii : ∀ c, q.head? = some c → isBlank c = true → isAscii c = true := fun c found =>
    child.blanks c (List.mem_of_mem_head? found)
  have whole : ∀ {before last first after}, branches = before ++ [last] → branches' = first :: after →
      Joined p q before last first after := by
    rintro before last first after rfl rfl
    exact joined own later ascii (shut tokens own.lexical)
  refine ⟨fun bound steps nested outer same same' => ?_, ?_, fun single single' => ?_⟩
  · rw [ResolverMemo.resolve_after, Rule.variants, resolved_nested parent child nested outer same same']
    rfl
  · obtain ⟨list, -, -, same⟩ := ofTokens_run own.read
    obtain ⟨list', -, -, same'⟩ := ofTokens_run later.read
    obtain ⟨first, after, same'⟩ := List.exists_cons_of_ne_nil (l := branches') (by simp [same'])
    subst same same'
    exact ⟨_, _, first, after, listed, listed', whole rfl rfl⟩
  · rw [Single, listed, Option.map_some, Option.some.injEq, List.length_eq_one_iff] at single
    rw [Single, listed', Option.map_some, Option.some.injEq, List.length_eq_one_iff] at single'
    obtain ⟨last, rfl⟩ := single
    obtain ⟨first, rfl⟩ := single'
    obtain ⟨⟨-, weight⟩, merged⟩ := @whole [] last first [] rfl rfl
    have sum : specificity (p ++ ' ' :: q) = branchWeight last + branchWeight (if Merges p q then first.tail else first) :=
      weight
    have alone : specificity p = branchWeight last ∧ specificity q = branchWeight first := ⟨own.weighs.2, later.weighs.2⟩
    rw [sum, alone.1, alone.2, specificity_add_assoc]
    split
    next merges => rw [merged merges, specificity_add_comm .oneElement]
    next => rw [specificity_add_zero]

/-- A comma and a bracket that are none, and a number at the end that a blank goes on with. -/
def cardSelector : Text := "ul:is(.a, #b):lang(/* ) */ en) .item\\31".toList

def labelSelector : Text := "> b:not(.c)".toList

theorem label_nested : Nestable cardSelector ∧ Nestable labelSelector ∧ TakesBlank cardSelector ∧
    specificity cardSelector = ⟨0, 1, 2, 1⟩ ∧ specificity labelSelector = ⟨0, 0, 1, 1⟩ ∧
      specificity (cardSelector ++ ' ' :: labelSelector) = ⟨0, 1, 3, 2⟩ ∧ Nests cardSelector labelSelector := by
  have outer : Nestable cardSelector := ⟨by decide +kernel, by decide +kernel, by decide +kernel, by decide +kernel⟩
  have inner : Nestable labelSelector := ⟨by decide +kernel, by decide +kernel, by decide +kernel, by decide +kernel⟩
  have enclosed : Enclosed cardSelector := by decide +kernel
  exact ⟨outer, inner, by decide +kernel, by decide +kernel, by decide +kernel, by decide +kernel,
    nested_weighs outer inner fun _ _ => Or.inl enclosed⟩

/-- The escape of a digit at the end of a class takes in the blank behind it, and with that the type that is nested. -/
theorem nested_type_is_lost : ¬ ∀ p q : Text, Nestable p → Nestable q → ∀ own parent : StyleBlock, own.selector = q →
    parent.selector = p → ∃ found, (Resolver.resolve {} ⟨own, [parent]⟩).1 = [found] ∧
      specificity found.text = specificity p + specificity q := by
  intro every
  have outer : Nestable ".\\31".toList := ⟨by decide +kernel, by decide +kernel, by decide +kernel, by decide +kernel⟩
  have inner : Nestable "b".toList := ⟨by decide +kernel, by decide +kernel, by decide +kernel, by decide +kernel⟩
  obtain ⟨found, only, weight⟩ := every _ _ outer inner { selector := "b".toList } { selector := ".\\31".toList } rfl rfl
  have answer : (Resolver.resolve {} ⟨{ selector := "b".toList }, [{ selector := ".\\31".toList }]⟩).1 =
      [.ofText ".\\31 b".toList] := by decide +kernel
  obtain rfl := List.singleton_inj.mp (answer.symm.trans only)
  exact absurd weight (by decide +kernel)

end Texts

end CascadeLens.Proofs.DescendantNesting
