import CascadeLens.Analysis.File
import CascadeLens.Proofs.FeatureSpans
import CascadeLens.Proofs.NamesFound
import CascadeLens.Proofs.BracketClosing

/-! A selector list matches the way its branches do. In a text whose brackets are nested, the arguments of
functions stand between their parentheses and every branch between commas, so searching them again finds nothing
that is not found in the whole, and nothing is lost at the cuts. -/

namespace CascadeLens.Proofs.BranchMatching
open Text TextShape KeyedFold NestReading BracketClosing FeatureSearch FeatureSpans NamesFound

section Nesting

/-- The closing brackets that are awaited behind a character, innermost first, `none` if it closes a bracket
out of turn. -/
def awaitStep (stack : List Char) (c : Char) : Option (List Char) :=
  if c = '(' then some (')' :: stack)
  else if c = '[' then some (']' :: stack)
  else if isCloser c then
    match stack with
    | [] => none
    | closer :: rest => if c = closer then some rest else none
  else some stack

def awaited (stack : List Char) (s : Text) : Option (List Char) := s.foldlM awaitStep stack

/-- Round and square brackets are closed in the order in which they are opened. -/
def Nested (s : Text) : Prop := awaited [] s = some []

instance (s : Text) : Decidable (Nested s) := inferInstanceAs (Decidable (_ = _))

/-- Text without quotes and backslashes. -/
def Literal (s : Text) : Prop := ∀ c ∈ s, c ≠ '\\' ∧ isQuote c = false

instance (s : Text) : Decidable (Literal s) := inferInstanceAs (Decidable (∀ c ∈ s, _))

variable {stack base : List Char} {s t inner : Text} {c closer : Char}

theorem awaited_append (stack : List Char) (s t : Text) :
    awaited stack (s ++ t) = (awaited stack s).bind fun middle => awaited middle t :=
  List.foldlM_append

theorem awaited_cons (nested : awaited stack (c :: s) = some base) :
    ∃ next, awaitStep stack c = some next ∧ awaited next s = some base :=
  Option.bind_eq_some_iff.mp nested

theorem awaited_front (nested : awaited stack (s ++ t) = some base) :
    ∃ middle, awaited stack s = some middle ∧ awaited middle t = some base := by
  rw [awaited_append] at nested
  exact Option.bind_eq_some_iff.mp nested

theorem awaitStep_flat (flat : isOpener c = false ∧ isCloser c = false) : awaitStep stack c = some stack := by
  have opens : c ≠ '(' ∧ c ≠ '[' := by simpa [isOpener] using flat.1
  simp [awaitStep, opens, flat.2]

theorem awaited_flat (flat : ∀ c ∈ s, isOpener c = false ∧ isCloser c = false) (stack : List Char) :
    awaited stack s = some stack := by
  induction s with
  | nil => rfl
  | cons c rest ih =>
    obtain ⟨own, others⟩ := List.forall_mem_cons.mp flat
    rw [awaited, List.foldlM_cons, awaitStep_flat own]
    exact ih others

theorem nested_trim (nested : Nested s) : Nested (trim s) := by
  obtain ⟨before, after, whole, white, white'⟩ := trim_spec s
  have flat : ∀ {s : Text}, (∀ c ∈ s, isBlank c = true) → ∀ stack, awaited stack s = some stack := fun white =>
    awaited_flat fun c member => blank_flat (white c member)
  rw [Nested, whole, awaited_append, flat white, Option.bind_some] at nested
  obtain ⟨middle, inside, rest⟩ := awaited_front nested
  rw [flat white'] at rest
  rw [Nested, inside, rest]

/-- A bracket that is opened is closed in the same text. -/
theorem not_nested_of_open {before inside : Text} (flat : ∀ c ∈ inside, isOpener c = false ∧ isCloser c = false) :
    ¬ Nested (before ++ '[' :: inside) := by
  intro nested
  obtain ⟨middle, _, rest⟩ := awaited_front nested
  obtain ⟨next, opened, closed⟩ := awaited_cons rest
  obtain rfl : ']' :: middle = next := Option.some.inj opened
  rw [awaited_flat flat] at closed
  cases Option.some.inj closed

theorem awaitStep_opener (opens : isOpener c = true) : ∃ mate, ∀ stack, awaitStep stack c = some (mate :: stack) := by
  rcases opener_cases opens with rfl | rfl
  · exact ⟨')', fun _ => rfl⟩
  · exact ⟨']', fun _ => rfl⟩

theorem awaitStep_closer (closes : isCloser c = true) (unopened : isOpener c = false) (stack : List Char) :
    awaitStep (c :: stack) c = some stack := by
  have unopened : c ≠ '(' ∧ c ≠ '[' := by simpa [isOpener] using unopened
  simp [awaitStep, unopened, closes]

/-- A character opens a bracket, closes the one that is awaited next, or leaves all as they are. -/
theorem awaitStep_cases {next : List Char} (step : awaitStep stack c = some next) :
    isOpener c = true ∨ (isOpener c = false ∧ isCloser c = true ∧ stack = c :: next) ∨
      isOpener c = false ∧ isCloser c = false := by
  by_cases opens : isOpener c = true
  · exact Or.inl opens
  have unopened : isOpener c = false := by simpa using opens
  by_cases closes : isCloser c = true
  · refine Or.inr (Or.inl ⟨unopened, closes, ?_⟩)
    have other : c ≠ '(' ∧ c ≠ '[' := by simpa [isOpener] using unopened
    cases stack with
    | nil => simp [awaitStep, other, closes] at step
    | cons first stack =>
      obtain rfl : c = first := by
        by_contra different
        simp [awaitStep, other, closes, different] at step
      rw [Option.some.inj (step.symm.trans (awaitStep_closer closes unopened stack))]
  · exact Or.inr (Or.inr ⟨unopened, by simpa using closes⟩)

/-- As many brackets are open as are awaited. -/
theorem within_step {next : List Char} (plain : c ≠ '\\' ∧ isQuote c = false) (step : awaitStep stack c = some next)
    (depth : Nat) : (within (stack.length + depth)).step c = within (next.length + depth) := by
  obtain ⟨escape, quote⟩ := plain
  rcases awaitStep_cases step with opens | ⟨unopened, closes, rfl⟩ | flat
  · obtain ⟨mate, opened⟩ := awaitStep_opener opens
    obtain rfl := Option.some.inj (step.symm.trans (opened stack))
    have more : (mate :: stack).length + depth = stack.length + depth + 1 := Nat.succ_add stack.length depth
    rw [more]
    simp [Nest.step, within, escape, quote, opens]
  · have fewer : (c :: next).length + depth = next.length + depth + 1 := Nat.succ_add next.length depth
    rw [fewer]
    simp [Nest.step, within, escape, quote, unopened, closes]
  · obtain rfl := Option.some.inj (step.symm.trans (awaitStep_flat flat))
    exact step_ordinary (by simp [ordinary, escape, quote, flat]) _

/-- The bracket that is awaited last of all closes in front of what was awaited before it. -/
theorem closing_found (literal : Literal s) (nested : awaited (stack ++ closer :: base) s = some []) :
    ∃ inner after, s = inner ++ closer :: after ∧ awaited stack inner = some [] ∧
      closingFrom (stack.length + 1) none false s = some inner.length := by
  show ∃ inner after : Text, _ ∧ _ ∧ closingBehind (within (stack.length + 1)) s = some inner.length
  induction s generalizing stack with
  | nil =>
    have empty : stack ++ closer :: base = [] := Option.some.inj nested
    simp at empty
  | cons c rest ih =>
    obtain ⟨plain, others⟩ := List.forall_mem_cons.mp literal
    obtain ⟨next, step, later⟩ := awaited_cons nested
    have further : ∀ {stack' : List Char}, awaitStep stack c = some stack' → next = stack' ++ closer :: base →
        ∃ inner after, c :: rest = inner ++ closer :: after ∧ awaited stack inner = some [] ∧
          closingBehind (within (stack.length + 1)) (c :: rest) = some inner.length := by
      intro stack' own same
      obtain ⟨inner, after, rfl, inside, found⟩ := ih others (same ▸ later)
      refine ⟨c :: inner, after, rfl, ?_, ?_⟩
      · rw [awaited, List.foldlM_cons, own]
        exact inside
      · have moved := within_step plain own 1
        have inside : ((within (stack.length + 1)).step c).depth ≠ 0 := by
          rw [moved]
          exact Nat.succ_ne_zero _
        rw [closing_step (Nat.succ_pos _), if_neg inside, moved, found]
        rfl
    rcases awaitStep_cases step with opens | ⟨unopened, closes, same⟩ | flat
    · obtain ⟨mate, opened⟩ := awaitStep_opener opens
      exact further (opened stack) (Option.some.inj (step.symm.trans (opened _)))
    · cases stack with
      | nil =>
        -- The closer awaited outermost is the one looked for.
        obtain ⟨rfl, -⟩ := List.cons.inj same
        have moved : (within 1).step closer = {} := within_step plain (awaitStep_closer closes unopened []) 0
        refine ⟨[], rest, rfl, rfl, ?_⟩
        rw [closing_step (Nat.succ_pos _)]
        exact if_pos (congrArg Nest.depth moved)
      | cons first stack =>
        obtain ⟨rfl, behind⟩ := List.cons.inj same
        exact further (awaitStep_closer closes unopened stack) behind.symm
    · exact further (awaitStep_flat flat) (Option.some.inj (step.symm.trans (awaitStep_flat flat)))

end Nesting

section Arguments

open Selector

variable {stack : List Char} {s word behind argument : Text} {feature : Feature}

theorem dropWord_opened (dropped : dropWord? (word ++ ['(']) s = some behind) : ∃ front, s = front ++ '(' :: behind := by
  induction word generalizing s with
  | nil =>
    cases s with
    | nil => cases dropped
    | cons c rest =>
      rw [List.nil_append, dropWord?] at dropped
      split at dropped
      next same =>
        exact ⟨[], by rw [sameLetter_round same, Option.some.inj dropped]; rfl⟩
      next => cases dropped
  | cons letter word ih =>
    cases s with
    | nil => cases dropped
    | cons c rest =>
      rw [List.cons_append, dropWord?] at dropped
      split at dropped
      next =>
        obtain ⟨front, rfl⟩ := ih dropped
        exact ⟨c :: front, rfl⟩
      next => cases dropped

theorem functionAt_opened (opened : functionAt? s = some behind) : ∃ front, s = front ++ '(' :: behind := by
  unfold functionAt? at opened
  split at opened
  next rest =>
    have words : ∀ word ∈ ["is(", "where(", "not(", "has("], word.toList = word.toList.dropLast ++ ['('] := by decide
    obtain ⟨word, listed, dropped⟩ := List.exists_of_findSome?_eq_some opened
    rw [words word listed] at dropped
    obtain ⟨front, rfl⟩ := dropWord_opened dropped
    exact ⟨':' :: front, rfl⟩
  next => cases opened

/-- An argument stands between its parentheses, blanks apart, and its brackets are nested. -/
structure Enclosed (s argument : Text) : Prop where
  enclosed : ∃ left inner right, s = left ++ '(' :: (inner ++ ')' :: right) ∧ argument = trim inner
  nested : Nested argument

private theorem enclosed_behind (literal : Literal behind) (nested : awaited (')' :: stack) behind = some [])
    (front : Text) : Enclosed (front ++ '(' :: behind) (argumentsOf behind) := by
  obtain ⟨inner, after, rfl, inside, found⟩ := @closing_found [] stack behind ')' literal nested
  have shape : argumentsOf (inner ++ ')' :: after) = trim inner := by
    rw [argumentsOf, show closingFrom 1 none false (inner ++ ')' :: after) = some inner.length from found]
    simp only [List.take_left]
  rw [shape]
  exact ⟨⟨front, inner, after, rfl, rfl⟩, nested_trim inside⟩

theorem Enclosed.cons (enclosed : Enclosed s argument) (c : Char) : Enclosed (c :: s) argument := by
  obtain ⟨⟨left, inner, right, rfl, same⟩, nested⟩ := enclosed
  exact ⟨⟨c :: left, inner, right, rfl, same⟩, nested⟩

theorem arguments_enclosed (literal : Literal s) (nested : awaited stack s = some []) (member : argument ∈ arguments s) :
    Enclosed s argument := by
  induction s generalizing stack with
  | nil => cases member
  | cons c rest ih =>
    obtain ⟨next, _, later⟩ := awaited_cons nested
    have others : Literal rest := (List.forall_mem_cons.mp literal).2
    rw [arguments] at member
    split at member
    next behind opened =>
      obtain ⟨front, whole⟩ := functionAt_opened opened
      have own : Enclosed (c :: rest) (argumentsOf behind) := by
        rw [whole] at literal nested ⊢
        obtain ⟨middle, _, inside⟩ := awaited_front nested
        obtain ⟨next, step, inside⟩ := awaited_cons inside
        obtain rfl : ')' :: middle = next := Option.some.inj step
        exact enclosed_behind (fun d listed => literal d (List.mem_append_right front (List.mem_cons_of_mem _ listed))) inside
          front
      dsimp only at member
      split at member
      · exact (ih others later member).cons c
      · rcases List.mem_cons.mp member with rfl | further
        · exact own
        · exact (ih others later further).cons c
    next => exact (ih others later member).cons c

theorem unescaped (literal : Literal s) : '\\' ∉ s := fun member => (literal _ member).1 rfl

theorem Literal.subset {t : Text} (literal : Literal s) (inside : t ⊆ s) : Literal t := fun c member => literal c (inside member)

/-- What is found in an argument is found where the argument stands. -/
theorem Enclosed.found (enclosed : Enclosed s argument) (clean : Clean feature) (literal : Literal s)
    (found : feature.foundIn argument = true) : feature.foundIn s = true := by
  obtain ⟨⟨left, inner, right, rfl, rfl⟩, _⟩ := enclosed
  have bare := unescaped literal
  have own : '\\' ∉ inner := fun member =>
    bare (List.mem_append_right left (List.mem_cons_of_mem _ (List.mem_append_left _ member)))
  have shape : left ++ '(' :: (inner ++ ')' :: right) = (left ++ ['(']) ++ (inner ++ ')' :: right) := by simp
  rw [found_trim clean own] at found
  rw [shape] at bare ⊢
  refine found_seamed clean bare (fun c last => ?_) rfl found
  rw [List.getLast?_concat] at last
  exact Option.some.inj last ▸ rfl

/-- No span reaches over a space behind a text whose brackets are closed. -/
theorem apart_of_nested (clean : Clean feature) (nested : Nested s) (more : Text) : Apart feature ' ' s more := by
  rintro core front back spans parted ⟨before, rfl⟩ _
  obtain ⟨inside, rfl, flat⟩ := (compact_of_spans clean spans).opened front back parted
  exact not_nested_of_open flat nested

/-- The expanded form of a selector shows what the selector shows. -/
theorem found_expanded (clean : Clean feature) (literal : Literal s) (nested : Nested s) :
    feature.foundIn (expand s) = true ↔ feature.foundIn s = true := by
  -- The expanded form is the selector with its arguments behind it, each of which it already holds.
  have parts : ∀ part ∈ s :: arguments s, Literal part ∧ Nested part ∧
      (feature.foundIn part = true → feature.foundIn s = true) := by
    refine List.forall_mem_cons.mpr ⟨⟨literal, nested, id⟩, fun argument member => ?_⟩
    have enclosed := arguments_enclosed literal nested member
    exact ⟨literal.subset (arguments_part member).subset, enclosed.nested, enclosed.found clean literal⟩
  have joined := found_joined clean (fun part member => unescaped (parts part member).1) (by decide)
    (fun s => (rfl : endsName (' ' :: s) = true)) fun part member => apart_of_nested clean (parts part member).2.1
  rw [expand, joined]
  constructor
  · rintro ⟨part, member, found⟩
    exact (parts part member).2.2 found
  · exact fun found => ⟨s, List.mem_cons_self, found⟩

end Arguments

section Branches

variable {mark : Char → Bool} {nest : Nest} {stack : List Char} {begun s piece : Text} {feature : Feature}

theorem topLevelFrom_filled : topLevelFrom mark nest begun s ≠ [] := by
  induction s generalizing nest begun with
  | nil => exact List.cons_ne_nil _ _
  | cons c rest ih =>
    rw [topLevelFrom]
    split
    · exact List.cons_ne_nil _ _
    · exact ih

/-- Putting the marks back between the pieces gives the text again. -/
theorem joined_pieces {glue : Char} : [glue].intercalate (topLevelFrom (· == glue) nest begun s) = begun.reverse ++ s := by
  induction s generalizing nest begun with
  | nil => rw [topLevelFrom, List.intercalate_singleton, List.append_nil]
  | cons c rest ih =>
    rw [topLevelFrom]
    split
    next cuts =>
      obtain rfl : c = glue := by
        simp only [Nest.cutsAt, Bool.and_eq_true, beq_iff_eq] at cuts
        exact cuts.1.2
      obtain ⟨piece, pieces, found⟩ := List.exists_cons_of_ne_nil (@topLevelFrom_filled (· == c) nest [] rest)
      rw [found, List.intercalate_cons_cons, ← found, ih]
      simp
    next => rw [ih, List.reverse_cons, List.append_assoc, List.singleton_append]

theorem literal_branch (literal : Literal s) (member : piece ∈ branches s) : Literal piece :=
  fun c inside => literal c (mem_branch member inside)

theorem piece_nested (started : awaited [] begun.reverse = some stack) (literal : Literal s)
    (nested : awaited stack s = some []) (member : piece ∈ topLevelFrom mark (within stack.length) begun s) : Nested piece := by
  induction s generalizing stack begun with
  | nil =>
    rw [topLevelFrom, List.mem_singleton] at member
    rw [member, Nested, started]
    exact nested
  | cons c rest ih =>
    obtain ⟨own, others⟩ := List.forall_mem_cons.mp literal
    obtain ⟨next, step, later⟩ := awaited_cons nested
    rw [topLevelFrom] at member
    split at member
    next cuts =>
      obtain rfl : stack = [] := List.length_eq_zero_iff.mp (congrArg Nest.depth (outside_of_cuts cuts))
      have flat : isOpener c = false ∧ isCloser c = false := by
        simp only [Nest.cutsAt, Bool.and_eq_true, Bool.not_eq_true', Bool.or_eq_false_iff] at cuts
        exact ⟨cuts.2.1.2, cuts.2.2⟩
      obtain rfl : [] = next := Option.some.inj ((awaitStep_flat flat).symm.trans step)
      rcases List.mem_cons.mp member with rfl | further
      · exact started
      · exact ih rfl others later further
    next =>
      rw [show (within stack.length).step c = within next.length from within_step own step 0] at member
      refine ih ?_ others later member
      rw [List.reverse_cons, awaited_append, started, Option.bind_some, awaited, List.foldlM_cons, step]
      rfl

theorem nested_branch (literal : Literal s) (nested : Nested s) (member : piece ∈ branches s) : Nested piece := by
  obtain ⟨raw, listed, rfl⟩ := List.mem_map.mp (List.mem_filter.mp member).1
  exact nested_trim (@piece_nested (· == ',') [] [] s raw rfl literal nested listed)

/-- What is found in a selector list is found in one of its branches. -/
theorem found_branches (clean : Clean feature) (literal : Literal s) :
    feature.foundIn s = true ↔ ∃ branch ∈ branches s, feature.foundIn branch = true := by
  have bare : ∀ piece ∈ topLevelFrom (· == ',') {} [] s, '\\' ∉ piece := fun piece listed member =>
    unescaped literal ((mem_piece listed member).resolve_left List.not_mem_nil)
  have uncut : ∀ piece more, Apart feature ',' piece more := by
    rintro piece more core front back spans rfl _ _
    exact (compact_of_spans clean spans).uncut (List.mem_append_right front List.mem_cons_self)
  have joined := found_joined clean bare (by decide) (fun s => (rfl : endsName (',' :: s) = true)) fun piece _ => uncut piece
  rw [joined_pieces, List.reverse_nil, List.nil_append] at joined
  rw [joined]
  constructor
  · rintro ⟨piece, listed, found⟩
    have trimmed : feature.foundIn (trim piece) = true := (found_trim clean (bare piece listed)).trans found
    have filled : trim piece ≠ [] := by
      intro empty
      rw [empty, found_nil clean] at trimmed
      cases trimmed
    exact ⟨trim piece, List.mem_filter.mpr ⟨List.mem_map_of_mem listed, by simpa using filled⟩, trimmed⟩
  · rintro ⟨branch, member, found⟩
    obtain ⟨piece, listed, rfl⟩ := List.mem_map.mp (List.mem_filter.mp member).1
    exact ⟨piece, listed, (found_trim clean (bare piece listed)).symm.trans found⟩

end Branches

section Reasons

/-- A target whose names are not divided: no blank and no comma in a class, an id or the element name, and no
bracket either in a data attribute. Attributes that are identifiers are among these. -/
structure Searchable (identity : Identity) : Prop where
  names : ∀ name ∈ identity.tag :: (identity.classes ++ identity.ids), ∀ c ∈ name, isBlank c = false ∧ c ≠ ','
  attributes : ∀ name ∈ identity.dataAttributes, ∀ c ∈ name, ¬ Divides c

variable {identity : Identity} {s : Text}

theorem namesOf_filled {names : List Text} {name : Text} (member : name ∈ namesOf names) : name ≠ [] := by
  rw [namesOf, mem_distinct] at member
  simpa using (List.mem_filter.mp member).2

theorem clean_of_searchable {classes ids attributes parts : List Text} {tag : Text}
    (searchable : Searchable (Identity.gather classes ids tag attributes parts)) :
    ∀ feature ∈ (Identity.gather classes ids tag attributes parts).features, Clean feature := by
  obtain ⟨tagged, others⟩ := List.forall_mem_cons.mp searchable.names
  obtain ⟨classed, idless⟩ := List.forall_mem_append.mp others
  simp only [Identity.features, List.forall_mem_append, List.forall_mem_map]
  refine ⟨⟨⟨classed, idless⟩, ?_⟩, fun name member => ⟨namesOf_filled member, searchable.attributes name member⟩⟩
  intro feature member
  split at member
  · cases member
  next used =>
    rw [List.mem_singleton.mp member]
    exact ⟨fun empty => used (by simp [empty]), tagged⟩

/-- The reasons of a selector are the features found in it. -/
theorem reasons_found (clean : ∀ feature ∈ identity.features, Clean feature) (single : identity.features.Nodup)
    (literal : Literal s) (nested : Nested s) :
    identity.reasons s = (identity.features.filter fun feature => feature.foundIn s).map Feature.reason := by
  have either : ∀ feature ∈ identity.features,
      (feature.foundIn s || feature.foundIn (Selector.expand s)) = feature.foundIn s := by
    intro feature listed
    rw [Bool.eq_iff_iff, Bool.or_eq_true, found_expanded (clean feature listed) literal nested, or_self]
  unfold Identity.reasons Identity.reasonsIn
  split
  next white =>
    have nothing : ∀ feature ∈ identity.features, ¬ feature.foundIn s = true := by
      intro feature listed
      have silent := @found_between_blanks feature s [] [] (clean feature listed) (List.all_eq_true.mp white) (by simp) (by simp)
      rw [List.append_nil, List.append_nil, found_nil (clean feature listed)] at silent
      simp [silent]
    rw [List.filter_eq_nil_iff.mpr nothing, List.map_nil]
  next =>
    rw [List.filter_congr either]
    exact distinct_of_nodup (List.Nodup.map reason_injective (single.filter _))

theorem specificityOf_matching (matching : identity.matchingBranches s ≠ []) :
    identity.specificityOf s = Specificity.greatest ((identity.matchingBranches s).map Selector.specificity) := by
  obtain ⟨branch, rest, found⟩ := List.exists_cons_of_ne_nil matching
  rw [Identity.specificityOf, found]

end Reasons

/-- A selector list matches exactly as its branches do: for the features that stand in one of them, for the
reasons for which one of them matches, and with the specificity of those that match. -/
theorem branches_decide (classes ids attributes parts : List Text) (tag : Text) {s : Text}
    (searchable : Searchable (Identity.gather classes ids tag attributes parts)) (literal : Literal s) (nested : Nested s) :
    let identity := Identity.gather classes ids tag attributes parts
    identity.reasons s =
        (identity.features.filter fun feature => (branches s).any fun branch => feature.foundIn branch).map Feature.reason ∧
      (∀ reason, reason ∈ identity.reasons s ↔ ∃ branch ∈ branches s, reason ∈ identity.reasons branch) ∧
      (identity.reasons s ≠ [] ↔ identity.matchingBranches s ≠ []) ∧
      (identity.reasons s ≠ [] →
        identity.specificityOf s = Specificity.greatest ((identity.matchingBranches s).map Selector.specificity)) := by
  intro identity
  have clean : ∀ feature ∈ identity.features, Clean feature := clean_of_searchable searchable
  have single : identity.features.Nodup := features_nodup (nodup_distinct _) (nodup_distinct _) (nodup_distinct _)
  have whole := reasons_found clean single literal nested
  have branch_reasons : ∀ branch ∈ branches s, identity.reasons branch =
      (identity.features.filter fun feature => feature.foundIn branch).map Feature.reason := fun branch member =>
    reasons_found clean single (literal_branch literal member) (nested_branch literal nested member)
  have any_branch : ∀ feature ∈ identity.features,
      feature.foundIn s = (branches s).any fun branch => feature.foundIn branch := by
    intro feature listed
    rw [Bool.eq_iff_iff, List.any_eq_true]
    exact found_branches (clean feature listed) literal
  have shared : ∀ reason, reason ∈ identity.reasons s ↔ ∃ branch ∈ branches s, reason ∈ identity.reasons branch := by
    intro reason
    rw [whole, List.mem_map]
    constructor
    · rintro ⟨feature, kept, rfl⟩
      obtain ⟨listed, found⟩ := List.mem_filter.mp kept
      obtain ⟨branch, member, inside⟩ := (found_branches (clean feature listed) literal).mp found
      refine ⟨branch, member, ?_⟩
      rw [branch_reasons branch member]
      exact List.mem_map_of_mem (List.mem_filter.mpr ⟨listed, inside⟩)
    · rintro ⟨branch, member, given⟩
      rw [branch_reasons branch member] at given
      obtain ⟨feature, kept, rfl⟩ := List.mem_map.mp given
      obtain ⟨listed, inside⟩ := List.mem_filter.mp kept
      have found := (found_branches (clean feature listed) literal).mpr ⟨branch, member, inside⟩
      exact ⟨feature, List.mem_filter.mpr ⟨listed, found⟩, rfl⟩
  have matching : identity.reasons s ≠ [] ↔ identity.matchingBranches s ≠ [] := by
    rw [← List.isEmpty_eq_false_iff, ← List.isEmpty_eq_false_iff]
    simp only [List.isEmpty_eq_false_iff_exists_mem, shared, Identity.matchingBranches, List.mem_filter, Bool.not_eq_true']
    exact ⟨fun ⟨reason, branch, member, given⟩ => ⟨branch, member, reason, given⟩,
      fun ⟨branch, member, reason, given⟩ => ⟨reason, branch, member, given⟩⟩
  exact ⟨by rw [whole, List.filter_congr any_branch], shared, matching,
    fun found => specificityOf_matching (matching.mp found)⟩

/-- A list with functions and a bracketed attribute, for a target with an id that begins with a digit. -/
theorem listed_branches_decide :
    let identity := Identity.gather ["menu".toList, "item".toList] ["1st".toList] "NAV".toList ["data-open".toList] []
    let list := "nav:not(.item, [ data-open ]) a, #1st > b".toList
    identity.reasons list ≠ [] ∧
      identity.specificityOf list = Specificity.greatest ((identity.matchingBranches list).map Selector.specificity) := by
  intro identity list
  have decided := branches_decide ["menu".toList, "item".toList] ["1st".toList] ["data-open".toList] [] "NAV".toList
    ⟨by decide, by decide⟩ (show Literal list by decide) (by decide)
  have found : identity.reasons list ≠ [] := by decide +kernel
  exact ⟨found, decided.2.2.2 found⟩

end CascadeLens.Proofs.BranchMatching
