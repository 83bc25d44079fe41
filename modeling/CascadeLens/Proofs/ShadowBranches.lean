import CascadeLens.Proofs.BranchMatching
import CascadeLens.Target.Shadow

/-! What a selector list shows of a component, next to what its branches show. Only the first call of each
pseudo-element is read, so a list covers the branches that its own first calls repeat. -/

namespace CascadeLens.Proofs.ShadowBranches
open Text TextShape KeyedFold NestReading FeatureSearch FeatureSpans BranchMatching

section Calls

/-- A call of a function that stands somewhere in a text, with the text between its parentheses. -/
def Calls (function content s : Text) : Prop :=
  ∃ before core after, s = before ++ (core ++ (content ++ ')' :: after)) ∧ dropWord? function core = some [] ∧
    content ≠ [] ∧ ')' ∉ content

variable {function content s whole : Text}

/-- Up to its first closing parenthesis a text is an argument, unless that is empty or missing. -/
theorem closed_iff {behind : Text} :
    (if (behind.takeWhile (· != ')')).isEmpty || behind.length == (behind.takeWhile (· != ')')).length then none
      else some (behind.takeWhile (· != ')'))) = some content ↔
      content ≠ [] ∧ ')' ∉ content ∧ ∃ after, behind = content ++ ')' :: after := by
  constructor
  · intro closed
    split at closed
    next => cases closed
    next filled =>
      obtain rfl := Option.some.inj closed
      simp only [Bool.or_eq_true, List.isEmpty_iff, beq_iff_eq, not_or] at filled
      have quiet : ')' ∉ behind.takeWhile (· != ')') := fun member => by
        simpa using List.all_eq_true.mp List.all_takeWhile _ member
      refine ⟨filled.1, quiet, ?_⟩
      have parts : behind.takeWhile (· != ')') ++ behind.dropWhile (· != ')') = behind := List.takeWhile_append_dropWhile
      cases rest : behind.dropWhile (· != ')') with
      | nil =>
        rw [rest, List.append_nil] at parts
        exact absurd (congrArg List.length parts.symm) filled.2
      | cons c after =>
        have first : (behind.dropWhile (· != ')')).head? = some c := by rw [rest]; rfl
        have stopped := List.head?_dropWhile_not (· != ')') behind
        rw [first] at stopped
        obtain rfl : c = ')' := by simpa using stopped
        exact ⟨after, by rw [← rest, parts]⟩
  · rintro ⟨filled, quiet, after, rfl⟩
    have run : (content ++ ')' :: after).takeWhile (· != ')') = content := by
      rw [List.takeWhile_append_of_pos fun c member => by simpa using ne_of_mem_of_not_mem member quiet]
      simp
    rw [run, if_neg]
    simp [filled]

theorem calls_of_argument (found : argument? function s = some content) : Calls function content s := by
  induction s with
  | nil => cases found
  | cons c rest ih =>
    rw [argument?, Option.or_eq_some_iff] at found
    rcases found with here | ⟨-, later⟩
    · split at here
      next => cases here
      next behind dropped =>
        obtain ⟨filled, quiet, after, rfl⟩ := closed_iff.mp here
        obtain ⟨core, parts, named⟩ := dropWord_split.mp dropped
        exact ⟨[], core, after, parts, named, filled, quiet⟩
    · obtain ⟨before, core, after, rfl, call⟩ := ih later
      exact ⟨c :: before, core, after, rfl, call⟩

theorem argument_of_calls (named : function ≠ []) (call : Calls function content s) :
    (argument? function s).isSome = true := by
  obtain ⟨before, core, after, rfl, dropped, filled, quiet⟩ := call
  induction before with
  | nil =>
    obtain ⟨c, core, rfl⟩ := List.exists_cons_of_ne_nil (dropWord_filled dropped named)
    have opened : dropWord? function (c :: (core ++ (content ++ ')' :: after))) = some (content ++ ')' :: after) :=
      dropWord_split.mpr ⟨c :: core, rfl, dropped⟩
    rw [List.nil_append, List.cons_append, argument?, opened, Option.isSome_or, Bool.or_eq_true]
    exact Or.inl (Option.isSome_iff_exists.mpr ⟨content, closed_iff.mpr ⟨filled, quiet, after, rfl⟩⟩)
  | cons c before ih =>
    rw [List.cons_append, argument?, Option.isSome_or, Bool.or_eq_true]
    exact Or.inr ih

/-- Where a part of a text calls a function, the text has a first call. -/
theorem argument_of_part (named : function ≠ []) (inside : s <:+: whole) (found : argument? function s = some content) :
    ∃ first, argument? function whole = some first := by
  obtain ⟨left, right, rfl⟩ := inside
  obtain ⟨before, core, after, rfl, call⟩ := calls_of_argument found
  exact Option.isSome_iff_exists.mp (argument_of_calls named ⟨left ++ before, core, after ++ right, by simp, call⟩)

end Calls

section Branches

theorem piece_part {mark : Char → Bool} {nest : Nest} {begun s piece : Text}
    (member : piece ∈ topLevelFrom mark nest begun s) : piece <:+: begun.reverse ++ s := by
  induction s generalizing nest begun with
  | nil =>
    rw [topLevelFrom, List.mem_singleton] at member
    exact ⟨[], [], by simp [member]⟩
  | cons c rest ih =>
    rw [topLevelFrom] at member
    split at member
    · rcases List.mem_cons.mp member with rfl | later
      · exact (List.prefix_append _ _).isInfix
      · exact (ih later).trans ((List.suffix_cons c rest).trans (List.suffix_append _ _)).isInfix
    · simpa using ih member

theorem branch_part {selector branch : Text} (member : branch ∈ branches selector) : branch <:+: selector := by
  obtain ⟨raw, listed, rfl⟩ := List.mem_map.mp (List.mem_filter.mp member).1
  obtain ⟨before, after, whole, _⟩ := trim_spec raw
  have trimmed : trim raw <:+: raw := ⟨before, after, by rw [List.append_assoc, ← whole]⟩
  exact trimmed.trans (piece_part listed)

/-- Every parenthesis that is opened is followed by one that closes. -/
def Closing (s : Text) : Prop := ∀ front back, s = front ++ '(' :: back → ')' ∈ back

variable {function word s piece : Text} {mark : Char}

theorem closing_of_nested (literal : Literal s) (nested : Nested s) : Closing s := by
  rintro front back rfl
  obtain ⟨middle, _, rest⟩ := awaited_front nested
  obtain ⟨next, opened, closed⟩ := awaited_cons rest
  obtain rfl : ')' :: middle = next := Option.some.inj opened
  have others : Literal back := literal.subset (List.subset_append_of_subset_right _ (List.subset_cons_self _ _))
  obtain ⟨inner, after, rfl, _⟩ := @closing_found [] middle back ')' others closed
  exact List.mem_append_right inner List.mem_cons_self

theorem dropWord_before (outside : mark ∉ word) (divides : Divides mark) (s more : Text) :
    dropWord? word (s ++ mark :: more) = (dropWord? word s).map (· ++ mark :: more) := by
  induction word generalizing s with
  | nil => rfl
  | cons letter word ih =>
    obtain ⟨other, outside⟩ := not_or.mp (mt List.mem_cons.mpr outside)
    cases s with
    | nil =>
      have apart : ¬ sameLetter letter mark = true := fun same => other (sameLetter_divides divides same).symm
      have missed : dropWord? (letter :: word) (mark :: more) = none := by rw [dropWord?, if_neg apart]
      exact missed
    | cons c rest =>
      rw [List.cons_append, dropWord?, dropWord?]
      split
      · exact ih outside rest
      · rfl

/-- A mark that divides texts keeps the calls before it apart from those behind it. -/
theorem argument_before (named : function = word ++ ['(']) (outside : mark ∉ function) (divides : Divides mark)
    (closing : Closing s) (more : Text) :
    argument? function (s ++ mark :: more) = (argument? function s).or (argument? function more) := by
  induction s with
  | nil =>
    have missed : dropWord? function (mark :: more) = none := by
      have empty : dropWord? function [] = none := by rw [named]; cases word <;> rfl
      have parted := dropWord_before outside divides [] more
      rwa [empty] at parted
    have passed : argument? function (mark :: more) = argument? function more := by rw [argument?, missed]; rfl
    exact passed
  | cons c rest ih =>
    have later : Closing rest := fun front back same => closing (c :: front) back (congrArg (c :: ·) same)
    rw [List.cons_append, argument?, ih later, argument?, Option.or_assoc, ← List.cons_append,
      dropWord_before outside divides]
    congr 1
    cases dropped : dropWord? function (c :: rest) with
    | none => rfl
    | some behind =>
      obtain ⟨front, whole⟩ := dropWord_opened (named ▸ dropped)
      have closed := closing front behind whole
      refine Option.ext fun content => (closed_iff.trans ?_).trans closed_iff.symm
      refine and_congr_right fun _ => and_congr_right fun quiet => ?_
      constructor
      · rintro ⟨after, same⟩
        rcases List.append_eq_append_iff.mp same with ⟨more', rfl, _⟩ | ⟨back, rfl, tail⟩
        · exact absurd (List.mem_append_left more' closed) quiet
        · cases back with
          | nil => exact absurd closed (by simpa using quiet)
          | cons d back => exact ⟨back, by rw [(List.cons.inj tail).1]⟩
      · rintro ⟨after, rfl⟩
        exact ⟨after ++ mark :: more, by simp⟩

theorem argument_joined (named : function = word ++ ['(']) (outside : mark ∉ function) (divides : Divides mark)
    {parts : List Text} (closing : ∀ part ∈ parts, Closing part) :
    argument? function ([mark].intercalate parts) = parts.findSome? (argument? function) := by
  induction parts with
  | nil => rfl
  | cons part parts ih =>
    obtain ⟨own, others⟩ := List.forall_mem_cons.mp closing
    cases parts with
    | nil => cases called : argument? function part <;> simp [called]
    | cons next parts =>
      rw [List.intercalate_cons_cons, List.append_assoc, List.singleton_append, argument_before named outside divides own,
        ih others]
      cases called : argument? function part <;> simp [List.findSome?_cons, called]

theorem argument_blanks (named : function = word ++ ['(']) (solid : ∀ c ∈ function, isBlank c = false) {gap : Text}
    (white : ∀ c ∈ gap, isBlank c = true) (s : Text) : argument? function (gap ++ s) = argument? function s := by
  induction gap with
  | nil => rfl
  | cons c gap ih =>
    obtain ⟨own, others⟩ := List.forall_mem_cons.mp white
    have outside : c ∉ function := fun member => Bool.noConfusion (own.symm.trans (solid c member))
    have empty : Closing [] := fun front back same => by simp at same
    have passed : argument? function (c :: (gap ++ s)) = argument? function (gap ++ s) :=
      argument_before named outside (Or.inl own) empty (gap ++ s)
    exact passed.trans (ih others)

theorem argument_trim (named : function = word ++ ['(']) (solid : ∀ c ∈ function, isBlank c = false)
    (closing : Closing (trim s)) : argument? function (trim s) = argument? function s := by
  obtain ⟨before, after, whole, white, white'⟩ := trim_spec s
  conv_rhs => rw [whole, argument_blanks named solid white]
  cases after with
  | nil => rw [List.append_nil]
  | cons c gap =>
    obtain ⟨own, others⟩ := List.forall_mem_cons.mp white'
    have outside : c ∉ function := fun member => Bool.noConfusion (own.symm.trans (solid c member))
    have silent : argument? function gap = none := by
      have passed := argument_blanks named solid others []
      rwa [List.append_nil] at passed
    rw [argument_before named outside (Or.inl own) closing, silent, Option.or_none]

theorem findSome_filled {β : Type} {f : Text → Option β} (empty : f [] = none) (items : List Text) :
    (items.filter (!·.isEmpty)).findSome? f = items.findSome? f := by
  induction items with
  | nil => rfl
  | cons item items ih =>
    cases item with
    | nil => rw [List.findSome?_cons, empty]; exact ih
    | cons c rest => simp only [List.filter_cons, List.isEmpty_cons, Bool.not_false, if_true, List.findSome?_cons, ih]

/-- The first call of a selector list is that of the first branch with a call. -/
theorem argument_branches (named : function = word ++ ['(']) (solid : ∀ c ∈ function, isBlank c = false ∧ c ≠ ',')
    (literal : Literal s) (nested : Nested s) :
    argument? function s = (branches s).findSome? (argument? function) := by
  have whole : [','].intercalate (topLevelFrom (· == ',') {} [] s) = s := joined_pieces
  have shape : ∀ piece ∈ topLevelFrom (· == ',') {} [] s, Literal piece ∧ Nested piece := fun piece listed =>
    ⟨fun c inside => literal c ((mem_piece listed inside).resolve_left List.not_mem_nil),
      @piece_nested (· == ',') [] [] s piece rfl literal nested listed⟩
  have comma : ',' ∉ function := fun member => (solid ',' member).2 rfl
  have joined := argument_joined named comma (Or.inr (by decide)) fun piece listed =>
    closing_of_nested (shape piece listed).1 (shape piece listed).2
  have trimmed : ∀ piece ∈ topLevelFrom (· == ',') {} [] s,
      argument? function (trim piece) = argument? function piece := by
    intro piece listed
    obtain ⟨bare, paired⟩ := shape piece listed
    have inside : trim piece ⊆ piece := fun c => mem_trim
    have closing := closing_of_nested (bare.subset inside) (nested_trim paired)
    exact argument_trim named (fun c member => (solid c member).1) closing
  rw [whole] at joined
  have mapped : ∀ (f : Text → Option Text) (pieces : List Text), pieces.findSome? f = (pieces.map f).findSome? id :=
    fun f pieces => (@List.findSome?_map _ _ _ id f pieces).symm
  rw [joined, branches, splitTopLevel, splitTopLevelBy, findSome_filled rfl, List.findSome?_map, mapped,
    mapped (_ ∘ trim), List.map_congr_left fun piece listed => (trimmed piece listed).symm]
  rfl

end Branches

section Reasons

/-- The names of the parts that the first call asks for. -/
def partNames (s : Text) : List Text := (argument? "::part(".toList s).elim [] words

def slottedContent? (s : Text) : Option Text := (argument? "::slotted(".toList s).map trim

theorem part_shape {name s : Text} (asked : name ∈ partNames s) : name ≠ [] ∧ Trimmed name := by
  unfold partNames at asked
  cases called : argument? "::part(".toList s with
  | none =>
    rw [called] at asked
    cases asked
  | some content =>
    rw [called] at asked
    obtain ⟨filled, solid⟩ := words_filled asked
    exact ⟨filled, fun c found => solid c (List.mem_of_head? found), fun c found => solid c (List.mem_of_getLast? found)⟩

theorem slotted_trimmed {content s : Text} (called : slottedContent? s = some content) : Trimmed content := by
  obtain ⟨argument, _, rfl⟩ := Option.map_eq_some_iff.mp called
  exact trim_trimmed argument

def hostReason : Text := "shadow-host with part".toList

/-- A part is asked for and a name of the target stands anywhere in the selector. -/
def Hosts (identity : Identity) (s : Text) : Prop :=
  (∃ content, argument? "::part(".toList s = some content) ∧
    ∃ name ∈ identity.classes ++ identity.ids ++ [identity.tag], name ≠ [] ∧ name <:+: s

variable {identity : Identity} {s reason : Text}

theorem mem_partReasons : reason ∈ identity.partReasons s ↔
    (∃ name ∈ partNames s, name ∈ identity.parts ∧ reason = "part: ".toList ++ name) ∨
      (Hosts identity s ∧ reason = hostReason) := by
  unfold Identity.partReasons partNames Hosts
  cases argument? "::part(".toList s with
  | none => simp
  | some content =>
    have named : reason ∈ ((words content).filter identity.parts.contains).map ("part: ".toList ++ ·) ↔
        ∃ name ∈ words content, name ∈ identity.parts ∧ reason = "part: ".toList ++ name := by
      simp only [List.mem_map, List.mem_filter, List.contains_iff_mem, and_assoc, @eq_comm _ reason]
    have hosts : (((identity.classes ++ identity.ids ++ [identity.tag]).filter (!·.isEmpty)).any
        fun name => holds name s) = true ↔
        ∃ name ∈ identity.classes ++ identity.ids ++ [identity.tag], name ≠ [] ∧ name <:+: s := by
      simp only [List.any_eq_true, List.mem_filter, Bool.not_eq_true', List.isEmpty_eq_false_iff, holds_iff, and_assoc]
    dsimp only [Option.elim_some]
    rw [← hosts, ← named]
    split
    next given =>
      rw [List.mem_append, List.mem_singleton]
      exact or_congr_right ⟨fun same => ⟨⟨⟨content, rfl⟩, given⟩, same⟩, And.right⟩
    next absent => simp only [absent, and_false, false_and, or_false, Bool.false_eq_true]

theorem mem_slottedReasons : reason ∈ identity.slottedReasons s ↔
    ∃ content, slottedContent? s = some content ∧ (∃ name ∈ identity.classes, name <:+: content) ∧
      reason = "slotted: ".toList ++ content := by
  unfold Identity.slottedReasons slottedContent?
  cases argument? "::slotted(".toList s with
  | none => simp
  | some content =>
    have held : (identity.classes.any fun name => holds name (trim content)) = true ↔
        ∃ name ∈ identity.classes, name <:+: trim content := by
      simp only [List.any_eq_true, holds_iff]
    simp only [Option.map_some, Option.some_inj, exists_eq_left', ← held]
    split
    next given => simp only [List.mem_singleton, given, true_and]
    next absent => simp only [absent, List.not_mem_nil, false_and, Bool.false_eq_true]

end Reasons

section Covering

/-- What is reported for a branch is reported for the whole selector. -/
structure Covers (whole branch : ShadowRelation) : Prop where
  reasons : branch.reasons ⊆ whole.reasons
  kinds : branch.kinds ⊆ whole.kinds

instance (whole branch : ShadowRelation) : Decidable (Covers whole branch) :=
  decidable_of_iff (branch.reasons ⊆ whole.reasons ∧ branch.kinds ⊆ whole.kinds)
    ⟨fun ⟨reasons, kinds⟩ => ⟨reasons, kinds⟩, fun ⟨reasons, kinds⟩ => ⟨reasons, kinds⟩⟩

/-- The first calls of a selector say what those of a branch say. -/
structure Repeats (selector branch : Text) : Prop where
  parts : partNames branch ⊆ partNames selector
  slotted : ∀ content, slottedContent? branch = some content → content ≠ [] → slottedContent? selector = some content

variable {identity : Identity} {selector branch : Text}

theorem covers_of_reasons (part : identity.partReasons branch ⊆ identity.partReasons selector)
    (slotted : identity.slottedReasons branch ⊆ identity.slottedReasons selector) :
    Covers (identity.shadowRelation selector) (identity.shadowRelation branch) := by
  have kind : ∀ (name : Text) {few many : List Text}, few ⊆ many →
      (if few.isEmpty then [] else [name]) ⊆ (if many.isEmpty then [] else [name]) := by
    intro name few many inside
    cases many with
    | nil =>
      rw [List.subset_nil.mp inside]
      exact List.Subset.refl _
    | cons => split <;> simp
  refine ⟨List.append_subset.mpr ⟨?_, ?_⟩, List.append_subset.mpr ⟨?_, ?_⟩⟩
  · exact List.subset_append_of_subset_left _ part
  · exact List.subset_append_of_subset_right _ slotted
  · exact List.subset_append_of_subset_left _ (kind _ part)
  · exact List.subset_append_of_subset_right _ (kind _ slotted)

theorem hosts_of_part (inside : branch <:+: selector) (hosts : Hosts identity branch) : Hosts identity selector := by
  obtain ⟨⟨content, called⟩, name, listed, filled, held⟩ := hosts
  exact ⟨argument_of_part (by decide) inside called, name, listed, filled, held.trans inside⟩

theorem covers_of_repeats (filled : ∀ name ∈ identity.classes, name ≠ []) (inside : branch <:+: selector)
    (repeats : Repeats selector branch) : Covers (identity.shadowRelation selector) (identity.shadowRelation branch) := by
  apply covers_of_reasons
  · intro reason given
    rw [mem_partReasons] at given ⊢
    rcases given with ⟨name, asked, exposed, same⟩ | ⟨hosts, same⟩
    · exact Or.inl ⟨name, repeats.parts asked, exposed, same⟩
    · exact Or.inr ⟨hosts_of_part inside hosts, same⟩
  · intro reason given
    rw [mem_slottedReasons] at given ⊢
    obtain ⟨content, called, ⟨name, listed, held⟩, same⟩ := given
    have solid : content ≠ [] := by
      rintro rfl
      exact filled name listed (List.infix_nil.mp held)
    exact ⟨content, repeats.slotted content called solid, ⟨name, listed, held⟩, same⟩

/-- A branch is covered when no branch in front of it asks for a part or for slotted content. -/
theorem leading_covered {earlier later : List Text} (literal : Literal selector) (nested : Nested selector)
    (cut : branches selector = earlier ++ branch :: later)
    (quiet : ∀ other ∈ earlier, argument? "::part(".toList other = none ∧ argument? "::slotted(".toList other = none)
    (filled : ∀ name ∈ identity.classes, name ≠ []) :
    Covers (identity.shadowRelation selector) (identity.shadowRelation branch) := by
  have first : ∀ {word function content : Text}, function = word ++ ['('] →
      (∀ c ∈ function, isBlank c = false ∧ c ≠ ',') → (∀ other ∈ earlier, argument? function other = none) →
      argument? function branch = some content → argument? function selector = some content := by
    intro word function content named solid silent called
    rw [argument_branches named solid literal nested, cut, List.findSome?_append, List.findSome?_eq_none_iff.mpr silent,
      Option.none_or, List.findSome?_cons, called]
  have member : branch ∈ branches selector := by rw [cut]; simp
  apply covers_of_repeats filled (branch_part member)
  constructor
  · intro name asked
    unfold partNames at asked ⊢
    cases called : argument? "::part(".toList branch with
    | none =>
      rw [called] at asked
      cases asked
    | some content =>
      have part : "::part(".toList = "::part".toList ++ ['('] := by decide
      rw [first part (by decide) (fun other listed => (quiet other listed).1) called]
      rwa [called] at asked
  · intro content given _
    obtain ⟨argument, called, rfl⟩ := Option.map_eq_some_iff.mp given
    have slotted : "::slotted(".toList = "::slotted".toList ++ ['('] := by decide
    rw [slottedContent?, first slotted (by decide) (fun other listed => (quiet other listed).2) called]
    rfl

theorem part_not_host (name : Text) : "part: ".toList ++ name ≠ hostReason := by
  intro same
  have front : "part: ".toList <+: hostReason := ⟨name, same⟩
  exact absurd front (by decide)

theorem slotted_not_host (content : Text) : "slotted: ".toList ++ content ≠ hostReason := by
  intro same
  have front : "slotted: ".toList <+: hostReason := ⟨content, same⟩
  exact absurd front (by decide)

theorem namesOf_single {name : Text} (filled : name ≠ []) (trimmed : Trimmed name) : namesOf [name] = [name] := by
  simp [namesOf, trim_eq_self trimmed, filled, distinct]

/-- One name of a target that is nothing but that name tells the calls of two selectors apart. -/
theorem repeats_of_covers (covers : ∀ classes ids attributes parts tag,
    Covers ((Identity.gather classes ids tag attributes parts).shadowRelation selector)
      ((Identity.gather classes ids tag attributes parts).shadowRelation branch)) : Repeats selector branch where
  parts := by
    intro name asked
    obtain ⟨filled, trimmed⟩ := part_shape asked
    have target : Identity.gather [] [] [] [] [name] = { parts := [name] } := by
      rw [Identity.gather, namesOf_single filled trimmed]
      rfl
    have given : "part: ".toList ++ name ∈ (Identity.shadowRelation { parts := [name] } branch).reasons :=
      List.mem_append_left _ (mem_partReasons.mpr (Or.inl ⟨name, asked, List.mem_singleton_self name, rfl⟩))
    have covered := (target ▸ covers [] [] [] [name] []).reasons given
    rcases List.mem_append.mp covered with part | slotted
    · rcases mem_partReasons.mp part with ⟨other, listed, _, same⟩ | ⟨_, same⟩
      · exact List.append_cancel_left same ▸ listed
      · exact absurd same (part_not_host name)
    · obtain ⟨_, _, ⟨_, classed, _⟩, _⟩ := mem_slottedReasons.mp slotted
      cases classed
  slotted := by
    intro content called filled
    have target : Identity.gather [content] [] [] [] [] = { classes := [content] } := by
      rw [Identity.gather, namesOf_single filled (slotted_trimmed called)]
      rfl
    have given : "slotted: ".toList ++ content ∈ (Identity.shadowRelation { classes := [content] } branch).reasons :=
      List.mem_append_right _ (mem_slottedReasons.mpr ⟨content, called, ⟨content, List.mem_singleton_self content,
        List.infix_refl _⟩, rfl⟩)
    have covered := (target ▸ covers [content] [] [] [] []).reasons given
    rcases List.mem_append.mp covered with part | slotted
    · rcases mem_partReasons.mp part with ⟨_, _, exposed, _⟩ | ⟨_, same⟩
      · cases exposed
      · exact absurd same (slotted_not_host content)
    · obtain ⟨other, found, _, same⟩ := mem_slottedReasons.mp slotted
      exact List.append_cancel_left same ▸ found

/-- A selector list reports the host of a part for every branch that does. It covers a branch for every target
exactly if its own first calls say what the calls of the branch say. -/
theorem branch_covered (member : branch ∈ branches selector) :
    (∀ identity : Identity, hostReason ∈ (identity.shadowRelation branch).reasons →
        hostReason ∈ (identity.shadowRelation selector).reasons) ∧
      ((∀ classes ids attributes parts tag,
          Covers ((Identity.gather classes ids tag attributes parts).shadowRelation selector)
            ((Identity.gather classes ids tag attributes parts).shadowRelation branch)) ↔ Repeats selector branch) := by
  have inside : branch <:+: selector := branch_part member
  refine ⟨fun identity given => ?_, repeats_of_covers, fun repeats classes ids attributes parts tag => ?_⟩
  · rcases List.mem_append.mp given with part | slotted
    · rcases mem_partReasons.mp part with ⟨name, _, _, same⟩ | ⟨hosts, _⟩
      · exact absurd same.symm (part_not_host name)
      · exact List.mem_append_left _ (mem_partReasons.mpr (Or.inr ⟨hosts_of_part inside hosts, rfl⟩))
    · obtain ⟨content, _, _, same⟩ := mem_slottedReasons.mp slotted
      exact absurd same.symm (slotted_not_host content)
  · exact covers_of_repeats (fun name listed => namesOf_filled listed) inside repeats

/-- A list whose branches ask for parts that the first of them asks for as well. -/
theorem label_covered :
    let list := "x-menu::part(icon label), .card ::part(label)".toList
    ".card ::part(label)".toList ∈ branches list ∧
      ∀ classes ids attributes parts tag,
        Covers ((Identity.gather classes ids tag attributes parts).shadowRelation list)
          ((Identity.gather classes ids tag attributes parts).shadowRelation ".card ::part(label)".toList) := by
  intro list
  have member : ".card ::part(label)".toList ∈ branches list := by decide +kernel
  have repeats : Repeats list ".card ::part(label)".toList := by
    constructor
    · decide +kernel
    · intro content called
      have nothing : slottedContent? ".card ::part(label)".toList = none := by decide +kernel
      rw [nothing] at called
      cases called
  exact ⟨member, (branch_covered member).2.mpr repeats⟩

/-- The part of the second branch is exposed and its name looked for, but not in the list as a whole. -/
theorem second_part_uncovered :
    let identity := Identity.gather [] [] [] [] ["b".toList]
    "::part(b)".toList ∈ branches "::part(a), ::part(b)".toList ∧
      identity.shadowRelation "::part(b)".toList = ⟨["part: b".toList], ["::part".toList]⟩ ∧
      identity.shadowRelation "::part(a), ::part(b)".toList = ⟨[], []⟩ ∧
      ¬ Covers (identity.shadowRelation "::part(a), ::part(b)".toList) (identity.shadowRelation "::part(b)".toList) := by
  decide +kernel

end Covering

end CascadeLens.Proofs.ShadowBranches
