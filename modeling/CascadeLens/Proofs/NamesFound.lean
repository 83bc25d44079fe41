import CascadeLens.Proofs.KeyedFold
import CascadeLens.Proofs.NameSearch
import Mathlib.Data.List.Nodup

/-! A selector made of names matches for exactly those names. Its functions are searched twice, in their place
and again behind the selector, and the second search finds only what the first one does. -/

namespace CascadeLens.Proofs.NamesFound
open Text TextShape KeyedFold SelectorWriting SelectorNames NamedSelectors FeatureSearch NameSearch

variable {grade : Grade} {feature : Feature} {s : Text}

section Search

theorem endsName_piece (piece : Part .piece) (s : Text) : endsName (piece.text ++ s) = true := by
  cases piece <;> rfl

theorem endsName_room (room : Room) (ends : endsName s = true) : endsName (room ++ s) = true := by
  obtain ⟨room, white⟩ := room
  cases room with
  | nil => exact ends
  | cons c rest =>
    rw [List.cons_append, endsName, white c List.mem_cons_self, Bool.true_or]

theorem endsName_link (link : Link) (s : Text) : endsName (link.text ++ s) = true := by
  cases link with
  | descendant room apart =>
    obtain ⟨c, rest, spelt⟩ := List.exists_cons_of_ne_nil apart
    rw [Link.text, spelt, List.cons_append, endsName, room.2 c (spelt ▸ List.mem_cons_self), Bool.true_or]
  | combinator before sign after =>
    rw [Link.text, List.append_assoc]
    refine endsName_room before ?_
    cases sign <;> rfl

/-- In front of the end of a name, a part of a selector shows its own names and hides nothing behind it. -/
theorem found_part (spelt : Spelt feature) (part : Part grade) (ends : endsName s = true) :
    feature.foundIn (part.text ++ s) = true ↔ shown feature ∈ part.names ∨ feature.foundIn s = true := by
  -- What follows is generalised: a compound is searched in front of its link, a list in front of the bracket.
  induction part generalizing s with
  | className name => simpa [Part.text, Part.names] using found_className spelt ends
  | idName name => simpa [Part.text, Part.names] using found_idName spelt ends
  | bracket name condition => simpa [Part.text, Part.names] using found_bracket spelt ends condition
  | pseudoClass name =>
    rw [Part.text, List.cons_append, found_colon spelt, foundIn_parted spelt (parted_of_endsName ends)]
    simp [Part.names]
  | pseudoElement name =>
    have colon : feature.foundIn (':' :: ':' :: (name ++ s)) = feature.foundIn (':' :: (name ++ s)) :=
      found_mark spelt rfl (by decide) (by decide)
    rw [Part.text, List.cons_append, List.cons_append, colon, found_colon spelt,
      foundIn_parted spelt (parted_of_endsName ends)]
    simp [Part.names]
  | function name before arguments after ih =>
    have ends' : endsName (after ++ ')' :: s) = true := endsName_room after rfl
    have closed : feature.foundIn (')' :: s) = feature.foundIn s := found_mark spelt ends (by decide) (by decide)
    rw [Part.function_append, found_colon spelt, foundBehind_opening (by decide), foundIn_room spelt, ih ends',
      foundIn_room spelt, closed, Part.names]
  | typeName name => simpa [Part.text, Part.names] using found_typeName spelt ends
  | universal =>
    have star : feature.foundIn ('*' :: s) = feature.foundIn s := found_mark spelt ends (by decide) (by decide)
    simp [Part.text, Part.names, star]
  | single piece ih => exact ih ends
  | more compound piece left right =>
    rw [Part.text, List.append_assoc, left (endsName_piece piece s), right ends, Part.names, List.mem_append, or_assoc]
  | lone compound ih => exact ih ends
  | linked compound link rest left right =>
    rw [Part.text, List.append_assoc, List.append_assoc, left (endsName_link link _), found_link spelt, right ends,
      Part.names, List.mem_append, or_assoc]
  | last branch ih => exact ih ends
  | listed branch before after rest left right =>
    have ends' : endsName (before ++ ',' :: (after ++ (rest.text ++ s))) = true := endsName_room before rfl
    rw [Part.listed_append, left ends', foundIn_room spelt, foundIn_opening spelt (by decide), foundIn_room spelt, right ends,
      Part.names, List.mem_append, or_assoc]

theorem found_whole (spelt : Spelt feature) (whole : Whole) (ends : endsName s = true) :
    feature.foundIn (whole.text ++ s) = true ↔ shown feature ∈ whole.list.names ∨ feature.foundIn s = true := by
  rw [Whole.text, List.append_assoc, List.append_assoc, foundIn_room spelt,
    found_part spelt whole.list (endsName_room whole.after ends), foundIn_room spelt]

end Search

section Expansion

open Selector

/-- A function begins where an opening parenthesis stands behind its name. -/
theorem functionAt_run {name behind : Text} (letters : ∀ c ∈ name, Letter c) (parted : Parted s)
    (opened : functionAt? (':' :: (name ++ s)) = some behind) : s = '(' :: behind := by
  have words : ∀ word ∈ ["is(", "where(", "not(", "has("],
      word.toList = word.toList.dropLast ++ ['('] ∧ ∀ c ∈ word.toList.dropLast, Letter c := by
    decide
  obtain ⟨word, listed, dropped⟩ := List.exists_of_findSome?_eq_some opened
  obtain ⟨spelt, own⟩ := words word listed
  exact dropWord_opening own letters parted (spelt ▸ dropped)

theorem functionAt_plain {name : Text} (letters : ∀ c ∈ name, Letter c) (ends : endsName s = true) :
    functionAt? (':' :: (name ++ s)) = none := by
  rw [Option.eq_none_iff_forall_ne_some]
  intro behind opened
  rw [functionAt_run letters (parted_of_endsName ends) opened] at ends
  cases ends

theorem argumentsOf_text (before : Room) (list : Part .list) (after : Room) (s : Text) :
    argumentsOf (before ++ (list.text ++ (after ++ ')' :: s))) = list.text := by
  have balanced := (room_balanced before).append ((balanced list).append (room_balanced after))
  have whole : before.1 ++ (list.text ++ (after.1 ++ ')' :: s)) = before.1 ++ (list.text ++ after.1) ++ ')' :: s := by simp
  have closing : closingFrom 1 none false (')' :: s) = some 0 := rfl
  have found := balanced 1 (')' :: s) (by decide)
  rw [closing, Option.map_some, Nat.zero_add] at found
  rw [whole, argumentsOf, found]
  simp only [List.take_left]
  exact trim_between_blanks before.2 after.2 (solid list).trimmed

theorem uncoloned_identifier (name : Identifier) : ':' ∉ name.1 := fun member =>
  letter_apart (by decide) member (List.mem_singleton_self ':')

theorem uncoloned_room (room : Room) : ':' ∉ room.1 := fun member =>
  blank_apart (by decide) member (List.mem_singleton_self ':')

theorem uncoloned_bracket (name : Identifier) (condition : Option Condition) : ':' ∉ (Part.bracket name condition).text := by
  cases condition with
  | none => simp [Part.text, uncoloned_identifier]
  | some condition =>
    obtain ⟨before, comparison, after, value⟩ := condition
    have sign : ':' ∉ comparison.text := by cases comparison <;> decide
    simp [Part.text, Condition.text, uncoloned_identifier, uncoloned_room, sign]

theorem uncoloned_link (link : Link) : ':' ∉ link.text := by
  cases link with
  | descendant room apart => exact uncoloned_room room
  | combinator before sign after =>
    have mark : ':' ≠ sign.mark := by cases sign <;> decide
    simp [Link.text, uncoloned_room, mark]

theorem arguments_plain (name : Identifier) (ends : endsName s = true) :
    Selector.arguments (':' :: (name ++ s)) = Selector.arguments s := by
  rw [Selector.arguments, functionAt_plain (identifier_letters name) ends]
  exact arguments_behind (uncoloned_identifier name) s

/-- What is searched again of a text are lists whose names are among the given ones. -/
def Repeats (text s : Text) (names : List Feature) : Prop := ∃ lists : List (Part .list),
  Selector.arguments (text ++ s) = lists.map Part.text ++ Selector.arguments s ∧ ∀ list ∈ lists, list.names ⊆ names

variable {quiet : Text} {names names' : List Feature}

theorem repeats_quiet (uncoloned : ':' ∉ quiet) : Repeats quiet s names := ⟨[], arguments_behind uncoloned s, by simp⟩

theorem Repeats.join {text text' : Text} (left : Repeats text (quiet ++ (text' ++ s)) names) (uncoloned : ':' ∉ quiet)
    (right : Repeats text' s names') : Repeats (text ++ (quiet ++ text')) s (names ++ names') := by
  obtain ⟨first, read, inside⟩ := left
  obtain ⟨second, read', inside'⟩ := right
  refine ⟨first ++ second, ?_, ?_⟩
  · rw [List.append_assoc, List.append_assoc, read, arguments_behind uncoloned, read', List.map_append, List.append_assoc]
  · intro list member
    rcases List.mem_append.mp member with early | late
    · exact List.subset_append_of_subset_left names' (inside list early)
    · exact List.subset_append_of_subset_right names (inside' list late)

theorem repeats_function {name : Identifier} {before after : Room} {arguments : Part .list}
    (inner : Repeats arguments.text (after ++ ')' :: s) arguments.names) :
    Repeats (Part.function name before arguments after).text s arguments.names := by
  obtain ⟨lists, read, inside⟩ := inner
  -- Whether or not the name is one of a function that is expanded, the search goes on inside of the list.
  have within : Selector.arguments (name ++ '(' :: (before ++ (arguments.text ++ (after ++ ')' :: s)))) =
      lists.map Part.text ++ Selector.arguments s := by
    have opening : ':' ∉ name.1 ++ '(' :: before.1 := by simp [uncoloned_identifier, uncoloned_room]
    have closing : ':' ∉ after.1 ++ [')'] := by simp [uncoloned_room]
    have left := arguments_behind opening (arguments.text ++ (after ++ ')' :: s))
    have right := arguments_behind closing s
    rw [List.append_assoc, List.cons_append] at left
    rw [List.append_assoc, List.singleton_append] at right
    rw [left, read, right]
  unfold Repeats
  rw [Part.function_append, Selector.arguments]
  split
  next behind opened =>
    have same := functionAt_run (identifier_letters name) (parted_cons (by decide) _) opened
    obtain rfl := (List.cons.inj same).2
    refine ⟨arguments :: lists, ?_, List.forall_mem_cons.mpr ⟨List.Subset.refl _, inside⟩⟩
    simp [argumentsOf_text, (solid arguments).filled, within]
  next => exact ⟨lists, within, inside⟩

theorem repeats_part (part : Part grade) (ends : endsName s = true) : Repeats part.text s part.names := by
  induction part generalizing s with
  | className name => exact repeats_quiet (by simp [Part.text, uncoloned_identifier])
  | idName name => exact repeats_quiet (by simp [Part.text, uncoloned_identifier])
  | bracket name condition => exact repeats_quiet (uncoloned_bracket name condition)
  | pseudoClass name => exact ⟨[], arguments_plain name ends, by simp⟩
  | pseudoElement name =>
    have second : functionAt? (':' :: ':' :: (name ++ s)) = none := @functionAt_plain _ [] (by simp) rfl
    refine ⟨[], ?_, by simp⟩
    rw [Part.text, List.cons_append, List.cons_append, Selector.arguments, second]
    exact arguments_plain name ends
  | function name before arguments after ih => exact repeats_function (ih (endsName_room after rfl))
  | typeName name => exact repeats_quiet (uncoloned_identifier name)
  | universal => exact repeats_quiet (by decide)
  | single piece ih => exact ih ends
  | more compound piece left right => exact Repeats.join (left (endsName_piece piece s)) (List.not_mem_nil) (right ends)
  | lone compound ih => exact ih ends
  | linked compound link rest left right =>
    exact (left (endsName_link link (rest.text ++ s))).join (uncoloned_link link) (right ends)
  | last branch ih => exact ih ends
  | listed branch before after rest left right =>
    have comma : ':' ∉ before.1 ++ ',' :: after.1 := by simp [uncoloned_room]
    have ends' : endsName (before ++ ',' :: after ++ (rest.text ++ s)) = true := by
      rw [List.append_assoc]
      exact endsName_room before rfl
    have joined := (left ends').join comma (right ends)
    rwa [List.append_assoc, List.cons_append] at joined

theorem arguments_whole (whole : Whole) : ∃ lists : List (Part .list),
    Selector.arguments whole.text = lists.map Part.text ∧ ∀ list ∈ lists, list.names ⊆ whole.list.names := by
  obtain ⟨lists, read, inside⟩ := repeats_part whole.list (endsName_room whole.after (rfl : endsName [] = true))
  have silent := @arguments_behind whole.after (uncoloned_room whole.after) []
  refine ⟨lists, ?_, inside⟩
  rw [List.append_nil] at read silent
  rw [Whole.text, arguments_behind (uncoloned_room whole.before), read, silent]
  exact List.append_nil _

theorem found_lists (spelt : Spelt feature) (lists : List (Part .list)) :
    feature.foundIn ([' '].intercalate (lists.map Part.text)) = true ↔ ∃ list ∈ lists, shown feature ∈ list.names := by
  induction lists with
  | nil => simp [foundIn_nil spelt]
  | cons list rest ih =>
    cases rest with
    | nil =>
      have alone := found_part spelt list (rfl : endsName [] = true)
      rw [List.append_nil, foundIn_nil spelt] at alone
      simpa [List.intercalate_singleton] using alone
    | cons next more =>
      have space : opensTag ' ' = true := by decide
      simp only [List.map_cons, List.intercalate_cons_cons, List.append_assoc, List.singleton_append] at ih ⊢
      rw [found_part spelt list rfl, foundIn_opening spelt space, ih]
      simp

/-- The names of a selector are found in it, and no others behind it. -/
theorem found_expand (spelt : Spelt feature) (whole : Whole) :
    feature.foundIn (Selector.expand whole.text) = true ↔ shown feature ∈ whole.list.names := by
  obtain ⟨lists, read, inside⟩ := arguments_whole whole
  have repeated := found_lists spelt lists
  rw [expand, read]
  cases lists with
  | nil =>
    have alone := found_whole spelt whole (rfl : endsName [] = true)
    rw [List.append_nil, foundIn_nil spelt] at alone
    simpa [List.intercalate_singleton] using alone
  | cons list rest =>
    have space : opensTag ' ' = true := by decide
    rw [List.map_cons] at repeated ⊢
    rw [List.intercalate_cons_cons, List.append_assoc, List.singleton_append, found_whole spelt whole rfl,
      foundIn_opening spelt space, repeated]
    constructor
    · intro found
      rcases found with own | ⟨other, listed, named⟩
      · exact own
      · exact inside other listed named
    · exact Or.inl

end Expansion

section Reasons

theorem blank_whole (whole : Whole) : blank whole.text = false := by
  obtain ⟨c, rest, spelt⟩ := List.exists_cons_of_ne_nil (solid whole.list).filled
  have letter : isBlank c = false := (solid whole.list).trimmed.first c (by rw [spelt]; rfl)
  simp [Whole.text, blank, spelt, letter]

/-- The letter that a reason begins with. -/
def initial : Feature → Char
  | .className _ => 'c'
  | .idName _ => 'i'
  | .tag _ => 't'
  | .dataAttribute _ => 'd'

theorem reason_injective : Function.Injective Feature.reason := by
  intro a b same
  have begins : ∀ feature : Feature, feature.reason.head? = some (initial feature) := by
    intro feature
    cases feature <;> rfl
  have first : initial a = initial b := by
    have heads := congrArg List.head? same
    rw [begins, begins] at heads
    exact Option.some.inj heads
  cases a with
  | className name =>
    cases b with
    | className other => exact congrArg Feature.className (List.append_cancel_left same)
    | _ => simp [initial] at first
  | idName name =>
    cases b with
    | idName other => exact congrArg Feature.idName (List.append_cancel_left same)
    | _ => simp [initial] at first
  | tag name =>
    cases b with
    | tag other => exact congrArg Feature.tag (List.append_cancel_left same)
    | _ => simp [initial] at first
  | dataAttribute name =>
    cases b with
    | dataAttribute other => exact congrArg Feature.dataAttribute (List.append_cancel_left same)
    | _ => simp [initial] at first

theorem features_nodup {identity : Identity} (classes : identity.classes.Nodup) (ids : identity.ids.Nodup)
    (attributes : identity.dataAttributes.Nodup) : identity.features.Nodup := by
  have classes' : (identity.classes.map Feature.className).Nodup :=
    classes.map fun _ _ => Feature.className.inj
  have ids' : (identity.ids.map Feature.idName).Nodup := ids.map fun _ _ => Feature.idName.inj
  have attributes' : (identity.dataAttributes.map Feature.dataAttribute).Nodup :=
    attributes.map fun _ _ => Feature.dataAttribute.inj
  unfold Identity.features
  split <;> simp only [List.nodup_append, classes', ids', attributes', List.nodup_nil, List.nodup_singleton, true_and]
  all_goals
    simp only [List.mem_append, List.mem_map, List.mem_singleton, List.not_mem_nil, or_false]
    grind

theorem reasons_spelt {identity : Identity} (spelt : ∀ feature ∈ identity.features, Spelt feature)
    (single : identity.features.Nodup) (whole : Whole) :
    identity.reasons whole.text =
      (identity.features.filter fun feature => shown feature ∈ whole.list.names).map Feature.reason := by
  have found : ∀ feature ∈ identity.features,
      (feature.foundIn whole.text || feature.foundIn (Selector.expand whole.text)) =
        decide (shown feature ∈ whole.list.names) := by
    intro feature listed
    have once := found_whole (spelt feature listed) whole (rfl : endsName [] = true)
    rw [List.append_nil, foundIn_nil (spelt feature listed)] at once
    have again := found_expand (spelt feature listed) whole
    rw [Bool.eq_iff_iff, Bool.or_eq_true, once, again]
    simp
  rw [Identity.reasons, Identity.reasonsIn, blank_whole, if_neg Bool.false_ne_true, List.filter_congr found]
  exact distinct_of_nodup (List.Nodup.map reason_injective (single.filter _))

theorem filter_map_reasons {kind : Text → Feature} {lead : Text} (written : ∀ name, (kind name).reason = lead ++ name)
    (keeps : Feature → Bool) (listed : List Text) :
    ((listed.map kind).filter keeps).map Feature.reason = (listed.filter fun name => keeps (kind name)).map (lead ++ ·) := by
  rw [List.filter_map, List.map_map]
  exact List.map_congr_left fun name _ => written name

/-- The reasons that the names of a selector give a target. -/
def reasonsFor (identity : Identity) (names : List Feature) : List Text :=
  (identity.classes.filter fun name => .className name ∈ names).map ("class: ".toList ++ ·) ++
    (identity.ids.filter fun name => .idName name ∈ names).map ("id: ".toList ++ ·) ++
    (if identity.hasSelectors ∧ .tag identity.tag ∈ names then ["tag: ".toList ++ identity.tag] else []) ++
    (identity.dataAttributes.filter fun name => .dataAttribute (lower name) ∈ names).map ("data-attr: ".toList ++ ·)

theorem reasonsFor_eq {identity : Identity} {names : List Feature} (folded : lower identity.tag = identity.tag)
    (untagged : .tag [] ∉ names) :
    (identity.features.filter fun feature => shown feature ∈ names).map Feature.reason = reasonsFor identity names := by
  have tagged : ((if identity.tag.isEmpty || !identity.hasSelectors then [] else [Feature.tag identity.tag]).filter
      fun feature => shown feature ∈ names).map Feature.reason =
        if identity.hasSelectors ∧ .tag identity.tag ∈ names then ["tag: ".toList ++ identity.tag] else [] := by
    have same : shown (.tag identity.tag) = .tag identity.tag := congrArg Feature.tag folded
    by_cases given : identity.hasSelectors = true ∧ .tag identity.tag ∈ names
    · have filled : identity.tag ≠ [] := fun empty => untagged (empty ▸ given.2)
      have kept : decide (shown (.tag identity.tag) ∈ names) = true := by rw [same, decide_eq_true given.2]
      rw [if_pos given, if_neg (by simp [filled, given.1]), List.filter_cons, if_pos kept]
      rfl
    · rw [if_neg given]
      split
      next => rfl
      next used =>
        have out : .tag identity.tag ∉ names := fun member => given ⟨by simp_all, member⟩
        rw [List.filter_cons_of_neg (by simpa [same] using out)]
        rfl
  rw [Identity.features, List.filter_append, List.filter_append, List.filter_append, List.map_append, List.map_append,
    List.map_append, tagged, filter_map_reasons (fun _ => rfl), filter_map_reasons (fun _ => rfl),
    filter_map_reasons (fun _ => rfl)]
  rfl

theorem reasonsFor_filled {identity : Identity} {names : List Feature} : reasonsFor identity names ≠ [] ↔
    (∃ name ∈ identity.classes, .className name ∈ names) ∨ (∃ name ∈ identity.ids, .idName name ∈ names) ∨
      (identity.hasSelectors = true ∧ .tag identity.tag ∈ names) ∨
      ∃ name ∈ identity.dataAttributes, .dataAttribute (lower name) ∈ names := by
  have kept : ∀ (lead : Text) (keeps : Text → Prop) [DecidablePred keeps] (listed : List Text),
      (listed.filter (keeps ·)).map (lead ++ ·) = [] ↔ ¬ ∃ name ∈ listed, keeps name := by
    intro lead keeps _ listed
    simp [List.filter_eq_nil_iff]
  have tagged : (if identity.hasSelectors ∧ .tag identity.tag ∈ names then ["tag: ".toList ++ identity.tag] else []) = [] ↔
      ¬ (identity.hasSelectors = true ∧ .tag identity.tag ∈ names) := by
    split <;> simp_all
  rw [reasonsFor, ne_eq, List.append_eq_nil_iff, List.append_eq_nil_iff, List.append_eq_nil_iff, kept, kept, kept, tagged,
    ← not_or, ← not_or, ← not_or, not_not, or_assoc, or_assoc]

theorem untagged (part : Part grade) : .tag [] ∉ part.names := by
  induction part with
  | typeName name =>
    have filled : lower name ≠ [] := by
      rw [lower_ascii (identifier_ascii name)]
      simpa using identifier_filled name
    simpa [Part.names] using filled
  | function _ _ _ _ ih => exact ih
  | single _ ih => exact ih
  | lone _ ih => exact ih
  | last _ ih => exact ih
  | more _ _ left right => simpa [Part.names] using ⟨left, right⟩
  | linked _ _ _ left right => simpa [Part.names] using ⟨left, right⟩
  | listed _ _ _ _ left right => simpa [Part.names] using ⟨left, right⟩
  | _ => simp [Part.names]

section Gathered

theorem namesOf_identifiers (names : List Identifier) : namesOf (names.map (·.1)) = distinct (names.map (·.1)) := by
  refine namesOf_trimmed fun text member => ?_
  obtain ⟨name, _, rfl⟩ := List.mem_map.mp member
  exact ⟨identifier_filled name, trim_eq_self (identifier_solid name).trimmed⟩

theorem identifier_of_gathered {names : List Identifier} {text : Text} (member : text ∈ namesOf (names.map (·.1))) :
    isIdentifier text = true := by
  rw [namesOf_identifiers, mem_distinct] at member
  obtain ⟨name, _, rfl⟩ := List.mem_map.mp member
  exact name.2

theorem lower_identifier (name : Identifier) : isIdentifier (lower name) = true ∧ lower (lower name) = lower name := by
  have ascii := identifier_ascii name
  have small : ∀ c ∈ name.1, Selector.isAscii (lowerChar c) = true := fun c member =>
    @every_ascii (fun c => Selector.isAscii (lowerChar c) = true) (by decide) c (ascii c member)
  have twice : ∀ c ∈ name.1, lowerChar (lowerChar c) = lowerChar c := fun c member =>
    @every_ascii (fun c => lowerChar (lowerChar c) = lowerChar c) (by decide) c (ascii c member)
  rw [lower_ascii ascii]
  constructor
  · obtain ⟨c, rest, spelt, begins, others⟩ := identifier_cons name
    rw [spelt] at ascii ⊢
    have first := @every_ascii (fun c => c.isAlpha = true ∨ c = '_' → ((lowerChar c).isAlpha || lowerChar c == '_') = true)
      (by decide +kernel) c (ascii c List.mem_cons_self) begins
    have later : ∀ d ∈ rest, ((lowerChar d).isAlphanum || lowerChar d == '_' || lowerChar d == '-') = true := fun d member =>
      @every_ascii (fun d => d.isAlphanum = true ∨ d = '_' ∨ d = '-' →
        ((lowerChar d).isAlphanum || lowerChar d == '_' || lowerChar d == '-') = true) (by decide +kernel) d
        (ascii d (List.mem_cons_of_mem c member)) (others d member)
    rw [List.map_cons, isIdentifier, first, Bool.true_and, List.all_map]
    exact List.all_eq_true.mpr later
  · rw [lower_ascii (by simpa using small), List.map_map]
    exact List.map_congr_left twice

theorem tag_identifier (tag : Option Identifier) {gathered : Text} (same : gathered = lower (trim ((tag.map (·.1)).getD []))) :
    gathered = [] ∨ isIdentifier gathered = true ∧ lower gathered = gathered := by
  cases tag with
  | none => exact Or.inl same
  | some name =>
    have bare : trim name.1 = name := trim_eq_self (identifier_solid name).trimmed
    rw [Option.map_some, Option.getD_some, bare] at same
    exact Or.inr (same ▸ lower_identifier name)

end Gathered

/-- The reasons for which a selector of names matches are those of the names in it, each given once, and it
matches if one of them is there. -/
theorem reasons_of_names (classes ids attributes : List Identifier) (tag : Option Identifier) (parts : List Text)
    (whole : Whole) :
    let identity := Identity.gather (classes.map (·.1)) (ids.map (·.1)) ((tag.map (·.1)).getD []) (attributes.map (·.1)) parts
    identity.reasons whole.text = reasonsFor identity whole.list.names ∧ (identity.reasons whole.text).Nodup ∧
      (identity.reasons whole.text ≠ [] ↔
        (∃ name ∈ identity.classes, .className name ∈ whole.list.names) ∨
        (∃ name ∈ identity.ids, .idName name ∈ whole.list.names) ∨
        (identity.hasSelectors = true ∧ .tag identity.tag ∈ whole.list.names) ∨
        (∃ name ∈ identity.dataAttributes, .dataAttribute (lower name) ∈ whole.list.names)) := by
  intro identity
  have tagged : identity.tag = [] ∨ isIdentifier identity.tag = true ∧ lower identity.tag = identity.tag :=
    tag_identifier tag rfl
  have folded : lower identity.tag = identity.tag := tagged.elim (fun empty => by rw [empty]; rfl) And.right
  have spelt : ∀ feature ∈ identity.features, Spelt feature := by
    simp only [Identity.features, List.forall_mem_append, List.forall_mem_map]
    refine ⟨⟨⟨fun name => identifier_of_gathered, fun name => identifier_of_gathered⟩, ?_⟩, fun name => identifier_of_gathered⟩
    intro feature member
    split at member
    · cases member
    next used =>
      have filled : identity.tag ≠ [] := fun empty => used (by simp [empty])
      rw [List.mem_singleton.mp member]
      exact (tagged.resolve_left filled).1
  have listed : identity.features.Nodup := features_nodup (nodup_distinct _) (nodup_distinct _) (nodup_distinct _)
  have reasons : identity.reasons whole.text = reasonsFor identity whole.list.names :=
    (reasons_spelt spelt listed whole).trans (reasonsFor_eq folded (untagged whole.list))
  refine ⟨reasons, ?_, ?_⟩
  · rw [reasons_spelt spelt listed whole]
    exact List.Nodup.map reason_injective (listed.filter _)
  · rw [reasons]
    exact reasonsFor_filled

example : (Identity.gather ["menu".toList, "men".toList] [] "NAV".toList ["Menu".toList] []).reasons banner.text =
    ["class: menu".toList, "tag: nav".toList, "data-attr: Menu".toList] := by
  decide +kernel

end Reasons

end CascadeLens.Proofs.NamesFound
