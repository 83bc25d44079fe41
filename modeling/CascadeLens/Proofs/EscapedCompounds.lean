import CascadeLens.Proofs.EscapedPrefixes
import CascadeLens.Proofs.FeatureSpans
import CascadeLens.Proofs.NamesFound
import Mathlib.Data.List.Infix

/-! Classes that are escaped and put together. Each of them is found again, and no other one except where a name
stands behind the dot inside of another, or is itself spelt with a dot or a backslash. -/

namespace CascadeLens.Proofs.EscapedCompounds
open Text Selector TextShape KeyedFold EscapedNames EscapedPrefixes FeatureSearch FeatureSpans NamesFound

def compound (names : List Text) : Text := names.flatMap fun name => '.' :: escape name

section Dots

variable {name before behind : Text} {names : List Text}

theorem compound_cons (name : Text) (names : List Text) :
    compound (name :: names) = '.' :: (escape name ++ compound names) := List.flatMap_cons

theorem compound_dotted (names : List Text) : Dotted (compound names) := by
  intro c found
  cases names with
  | nil => cases found
  | cons name names => exact (Option.some.inj found).symm

/-- A dot in an escaped name is one of the name itself. -/
theorem dot_of_flatMap (whole : name.flatMap escapeChar = before ++ '.' :: behind) :
    ∃ front back, name = front ++ '.' :: back ∧ behind = back.flatMap escapeChar := by
  induction name generalizing before with
  | nil => cases before <;> cases whole
  | cons c name ih =>
    have onward : ∀ {before}, name.flatMap escapeChar = before ++ '.' :: behind →
        ∃ front back, c :: name = front ++ '.' :: back ∧ behind = back.flatMap escapeChar := by
      intro before whole
      obtain ⟨front, back, rfl, same⟩ := ih whole
      exact ⟨c :: front, back, rfl, same⟩
    rw [List.flatMap_cons] at whole
    rcases escapeChar_spec c with ⟨plain, spelt⟩ | ⟨_, spelt⟩
    · rw [spelt] at whole
      cases before with
      | nil => exact absurd plain (by rw [(List.cons.inj whole).1]; decide)
      | cons d before => exact onward (List.cons.inj whole).2
    · rw [spelt] at whole
      match before with
      | [] => exact absurd (List.cons.inj whole).1 (by decide)
      | [d] =>
        obtain ⟨rfl, same⟩ := List.cons.inj (List.cons.inj whole).2
        exact ⟨[], name, rfl, same.symm⟩
      | d :: e :: before => exact onward (List.cons.inj (List.cons.inj whole).2).2

theorem dot_of_escape (whole : escape name = before ++ '.' :: behind) :
    ∃ front back, name = front ++ '.' :: back ∧ behind = back.flatMap escapeChar := by
  cases name with
  | nil => cases before <;> cases whole
  | cons c rest =>
    cases digit : isDigit c with
    | false =>
      rw [escape_other digit] at whole
      exact dot_of_flatMap whole
    | true =>
      have absent : '.' ∉ '\\' :: (hexText c.toNat ++ [' ']) := by
        simp [not_mem_hexText (by decide : isHexDigit '.' = false)]
      rw [escape_digit digit, ← List.cons_append] at whole
      obtain ⟨more, -, later⟩ := split_behind absent whole
      obtain ⟨front, back, rfl, same⟩ := dot_of_flatMap later
      exact ⟨c :: front, back, rfl, same⟩

theorem escape_at_dot (front back : Text) :
    ∃ before, escape (front ++ '.' :: back) = before ++ '.' :: back.flatMap escapeChar := by
  have dot : escapeChar '.' = ['\\', '.'] := by decide
  cases front with
  | nil => exact ⟨['\\'], by rw [List.nil_append, escape_other (by decide), List.flatMap_cons, dot]; rfl⟩
  | cons c front =>
    cases digit : isDigit c with
    | true =>
      refine ⟨'\\' :: ((hexText c.toNat ++ [' ']) ++ (front.flatMap escapeChar ++ ['\\'])), ?_⟩
      simp [escape_digit digit, dot]
    | false =>
      refine ⟨(c :: front).flatMap escapeChar ++ ['\\'], ?_⟩
      rw [List.cons_append, escape_other digit]
      simp [dot]

/-- Behind a dot of a compound stands one of the names, or the rest of one behind a dot of its own. -/
theorem behind_dot (whole : compound names = before ++ '.' :: behind) : ∃ name ∈ names, ∃ later,
    behind = escape name ++ compound later ∨
      ∃ front back, name = front ++ '.' :: back ∧ behind = back.flatMap escapeChar ++ compound later := by
  induction names generalizing before with
  | nil => cases before <;> cases whole
  | cons name names ih =>
    have onward : ∀ {before}, compound names = before ++ '.' :: behind → ∃ other ∈ name :: names, ∃ later,
        behind = escape other ++ compound later ∨
          ∃ front back, other = front ++ '.' :: back ∧ behind = back.flatMap escapeChar ++ compound later := by
      intro before whole
      obtain ⟨other, member, found⟩ := ih whole
      exact ⟨other, List.mem_cons_of_mem name member, found⟩
    rw [compound_cons] at whole
    cases before with
    | nil => exact ⟨name, List.mem_cons_self, names, Or.inl (List.cons.inj whole).2.symm⟩
    | cons d before =>
      rcases List.append_eq_append_iff.mp (List.cons.inj whole).2 with ⟨more, -, later⟩ | ⟨gap, own, later⟩
      · exact onward later
      · cases gap with
        | nil => exact @onward [] later.symm
        | cons e gap =>
          obtain ⟨rfl, same⟩ := List.cons.inj later
          obtain ⟨front, back, split, spelt⟩ := dot_of_escape own
          exact ⟨name, List.mem_cons_self, names, Or.inr ⟨front, back, split, spelt ▸ same⟩⟩

theorem compound_at (member : name ∈ names) :
    ∃ before later, compound names = before ++ '.' :: (escape name ++ compound later) := by
  obtain ⟨front, back, rfl⟩ := List.append_of_mem member
  exact ⟨compound front, back, by simp [compound]⟩

end Dots

section Functions

variable {letter c : Char} {word s t behind : Text}

/-- Parentheses only stand behind backslashes, so that none opens the arguments of a function. -/
structure Guarded (s : Text) : Prop where
  inside : s.IsChain fun c d => d = '(' → c = '\\'
  first : ∀ c ∈ s.head?, c ≠ '('

theorem guarded_of_absent (absent : '(' ∉ s) : Guarded s where
  inside := by
    refine (List.pairwise_of_forall_mem_list fun _ _ d member => ?_).isChain
    rintro rfl
    exact absurd member absent
  first c found same := absent (same ▸ List.mem_of_head? found)

theorem Guarded.append (guarded : Guarded s) (guarded' : Guarded t) : Guarded (s ++ t) where
  inside := by
    have seam : ∀ c ∈ s.getLast?, ∀ d ∈ t.head?, d = '(' → c = '\\' :=
      fun _ _ d found same => absurd same (guarded'.first d found)
    exact List.isChain_append.mpr ⟨guarded.inside, guarded'.inside, seam⟩
  first := by
    cases s with
    | nil => exact guarded'.first
    | cons c rest => exact guarded.first

theorem Guarded.flatMap {α : Type} {items : List α} {f : α → Text} (guarded : ∀ item ∈ items, Guarded (f item)) :
    Guarded (items.flatMap f) := by
  induction items with
  | nil => exact guarded_of_absent List.not_mem_nil
  | cons item items ih =>
    obtain ⟨own, others⟩ := List.forall_mem_cons.mp guarded
    exact own.append (ih others)

theorem guarded_escapeChar (c : Char) : Guarded (escapeChar c) := by
  rcases escapeChar_spec c with ⟨plain, spelt⟩ | ⟨_, spelt⟩
  · rw [spelt]
    refine guarded_of_absent fun member => ?_
    exact absurd plain (by rw [← List.mem_singleton.mp member]; decide)
  · rw [spelt]
    exact ⟨by simp, by simp⟩

theorem guarded_escape (name : Text) : Guarded (escape name) := by
  cases name with
  | nil => exact guarded_of_absent List.not_mem_nil
  | cons c rest =>
    cases digit : isDigit c with
    | false =>
      rw [escape_other digit]
      exact Guarded.flatMap fun d _ => guarded_escapeChar d
    | true =>
      have absent : '(' ∉ '\\' :: (hexText c.toNat ++ [' ']) := by
        simp [not_mem_hexText (by decide : isHexDigit '(' = false)]
      rw [escape_digit digit]
      exact (guarded_of_absent absent).append (Guarded.flatMap fun d _ => guarded_escapeChar d)

theorem guarded_compound (names : List Text) : Guarded (compound names) :=
  Guarded.flatMap fun name _ => (guarded_of_absent (by decide : '(' ∉ ['.'])).append (guarded_escape name)

theorem dropWord_pair (dropped : dropWord? (word ++ [letter, '(']) s = some behind) :
    ∃ front c, s = front ++ c :: '(' :: behind ∧ sameLetter letter c = true := by
  induction word generalizing s with
  | nil =>
    match s with
    | [] => cases dropped
    | [c] => simp [dropWord?] at dropped
    | c :: d :: rest =>
      simp only [List.nil_append, dropWord?] at dropped
      split at dropped
      next same =>
        split at dropped
        next round => exact ⟨[], c, by rw [sameLetter_round round, Option.some.inj dropped]; rfl, same⟩
        next => cases dropped
      next => cases dropped
  | cons first word ih =>
    cases s with
    | nil => cases dropped
    | cons c rest =>
      rw [List.cons_append, dropWord?] at dropped
      split at dropped
      next =>
        obtain ⟨front, d, rfl, same⟩ := ih dropped
        exact ⟨c :: front, d, rfl, same⟩
      next => cases dropped

/-- No function begins where parentheses only stand behind backslashes. -/
theorem functionAt_guarded (inside : s.IsChain fun c d => d = '(' → c = '\\') : functionAt? s = none := by
  by_contra opened
  obtain ⟨behind, opened⟩ := Option.ne_none_iff_exists'.mp opened
  unfold functionAt? at opened
  split at opened
  next rest =>
    have words : ∀ word ∈ ["is(", "where(", "not(", "has("], word.toList.dropLast.getLastD ' ' ∈ ['s', 'e', 't'] ∧
        word.toList = word.toList.dropLast.dropLast ++ [word.toList.dropLast.getLastD ' ', '('] := by decide
    have apart : ∀ letter ∈ ['s', 'e', 't'], sameLetter letter '\\' = false := by decide
    obtain ⟨word, listed, dropped⟩ := List.exists_of_findSome?_eq_some opened
    obtain ⟨last, spelt⟩ := words word listed
    rw [spelt] at dropped
    obtain ⟨front, c, rfl, same⟩ := dropWord_pair dropped
    have pair : [c, '('] <:+: ':' :: (front ++ c :: '(' :: behind) := ⟨':' :: front, behind, by simp⟩
    obtain rfl : c = '\\' := by simpa using inside.infix pair
    rw [apart _ last] at same
    cases same
  next => cases opened

theorem arguments_guarded (inside : s.IsChain fun c d => d = '(' → c = '\\') : arguments s = [] := by
  induction s with
  | nil => rfl
  | cons c rest ih =>
    rw [arguments, functionAt_guarded inside]
    exact ih inside.tail

theorem expand_compound (names : List Text) : Selector.expand (compound names) = compound names := by
  rw [Selector.expand, arguments_guarded (guarded_compound names).inside, List.intercalate_singleton]

end Functions

section Mistakes

variable {name : Text} {names : List Text}

/-- A name that stands behind a dot inside of another, where its escaped or its plain form is spelt. -/
structure Tail (names : List Text) (name : Text) : Prop where
  behind : ∃ whole ∈ names, '.' :: name <:+ whole
  uncoded : (∀ c ∈ name, isPlain c = true) ∨ name.head?.any isDigit = false

instance : Decidable (Tail names name) :=
  decidable_of_iff ((∃ whole ∈ names, '.' :: name <:+ whole) ∧
      ((∀ c ∈ name, isPlain c = true) ∨ name.head?.any isDigit = false))
    ⟨fun ⟨behind, uncoded⟩ => ⟨behind, uncoded⟩, fun ⟨behind, uncoded⟩ => ⟨behind, uncoded⟩⟩

/-- A name with dots or backslashes that is spelt by a compound without being escaped. -/
structure Verbatim (names : List Text) (name : Text) : Prop where
  signed : '.' ∈ name ∨ '\\' ∈ name
  stands : ∃ after ∈ (compound names).tails, '.' :: (name ++ after) <:+ compound names ∧ endsName after = true

instance : Decidable (Verbatim names name) :=
  decidable_of_iff (('.' ∈ name ∨ '\\' ∈ name) ∧
      ∃ after ∈ (compound names).tails, '.' :: (name ++ after) <:+ compound names ∧ endsName after = true)
    ⟨fun ⟨signed, stands⟩ => ⟨signed, stands⟩, fun ⟨signed, stands⟩ => ⟨signed, stands⟩⟩

def Mistaken (names : List Text) (name : Text) : Prop := Tail names name ∨ Verbatim names name

instance : Decidable (Mistaken names name) := inferInstanceAs (Decidable (_ ∨ _))

theorem solid_behind {front back : Text} (solid : Solidly (front ++ '.' :: back)) : Solidly back :=
  fun c member => solid c (List.mem_append_right front (List.mem_cons_of_mem '.' member))

theorem marked_of_tail (tail : Tail names name) : hasMarked '.' name (compound names) = true := by
  obtain ⟨⟨whole, member, front, split⟩, uncoded⟩ := tail
  obtain ⟨before, later, spelt⟩ := compound_at member
  obtain ⟨start, own⟩ := escape_at_dot front name
  have place : compound names = (before ++ '.' :: start) ++ '.' :: (name.flatMap escapeChar ++ compound later) := by
    rw [spelt, ← split, own]
    simp
  have form : name.flatMap escapeChar = name ∨ name.flatMap escapeChar = escape name :=
    uncoded.imp flatMap_plain fun other => (escape_uncoded other).symm
  exact hasMarked_iff.mpr ⟨_, _, _, place, form, (compound_dotted later).ends⟩

theorem marked_of_verbatim (verbatim : Verbatim names name) : hasMarked '.' name (compound names) = true := by
  obtain ⟨_, after, _, ⟨before, place⟩, ends⟩ := verbatim
  exact hasMarked_iff.mpr ⟨before, name, after, place.symm, Or.inl rfl, ends⟩

theorem mem_or_tail_of_escape {before after : Text} (filled : name ≠ []) (solid : ∀ whole ∈ names, Solidly whole)
    (place : compound names = before ++ '.' :: (escape name ++ after)) (ends : endsName after = true) :
    name ∈ names ∨ Tail names name := by
  obtain ⟨whole, member, later, spelt | ⟨front, back, rfl, spelt⟩⟩ := behind_dot place
  · exact Or.inl (eq_of_escape filled (solid whole member) (compound_dotted later) ends spelt ▸ member)
  · -- Only at the start of a whole name is a digit written by its code.
    have uncoded : name.head?.any isDigit = false := by
      obtain ⟨c, more, rfl⟩ := List.exists_cons_of_ne_nil filled
      by_contra digit
      cases back with
      | nil => exact absurd spelt (escape_undotted filled (compound_dotted later))
      | cons d back =>
        rw [List.flatMap_cons, List.append_assoc] at spelt
        exact absurd spelt (coded_apart (by simpa using digit) more)
    rw [escape_uncoded uncoded] at spelt
    obtain rfl := eq_of_flatMap (solid_behind (solid _ member)) (compound_dotted later) ends spelt
    exact Or.inr ⟨⟨_, member, front, rfl⟩, Or.inr uncoded⟩

theorem mem_or_tail_of_bare {before after : Text} (filled : name ≠ []) (bare : '\\' ∉ name) (undotted : '.' ∉ name)
    (solid : ∀ whole ∈ names, Solidly whole) (place : compound names = before ++ '.' :: (name ++ after))
    (ends : endsName after = true) : name ∈ names ∨ Tail names name := by
  obtain ⟨whole, member, later, spelt | ⟨front, back, rfl, spelt⟩⟩ := behind_dot place
  · have same := eq_of_bare_escape filled bare undotted (solid whole member) (compound_dotted later) ends spelt
    exact Or.inl (same ▸ member)
  · have solid' := solid_behind (solid _ member)
    obtain ⟨plain, rfl⟩ := eq_of_bare bare undotted solid' (compound_dotted later) ends spelt
    exact Or.inr ⟨⟨_, member, front, rfl⟩, Or.inl plain⟩

/-- A compound shows its own classes, and those that are mistaken for one. -/
theorem shows_compound (filled : name ≠ []) (solid : ∀ whole ∈ names, Solidly whole) :
    Shows name (compound names) ↔ name ∈ names ∨ Mistaken names name := by
  rw [Shows, expand_compound, or_self]
  constructor
  · intro marked
    obtain ⟨before, form, after, place, rfl | rfl, ends⟩ := hasMarked_iff.mp marked
    · by_cases signed : '.' ∈ form ∨ '\\' ∈ form
      · have suffix : after <:+ compound names := by
          rw [place]
          exact ⟨before ++ '.' :: form, by simp⟩
        exact Or.inr (Or.inr ⟨signed, after, (List.mem_tails _ _).mpr suffix, ⟨before, place.symm⟩, ends⟩)
      · obtain ⟨undotted, bare⟩ := not_or.mp signed
        exact (mem_or_tail_of_bare filled bare undotted solid place ends).imp_right Or.inl
    · exact (mem_or_tail_of_escape filled solid place ends).imp_right Or.inl
  · rintro (member | tail | verbatim)
    · obtain ⟨before, later, place⟩ := compound_at member
      exact hasMarked_iff.mpr ⟨before, _, _, place, Or.inr rfl, (compound_dotted later).ends⟩
    · exact marked_of_tail tail
    · exact marked_of_verbatim verbatim

/-- Nothing is mistaken where no name of the compound holds a dot, and the one sought neither dot nor backslash. -/
theorem not_mistaken (undotted : ∀ whole ∈ names, '.' ∉ whole) (unsigned : '.' ∉ name ∧ '\\' ∉ name) :
    ¬ Mistaken names name := by
  rintro (⟨⟨whole, member, inside⟩, _⟩ | ⟨signed, _⟩)
  · exact undotted whole member (inside.subset List.mem_cons_self)
  · exact signed.elim unsigned.1 unsigned.2

end Mistakes

section Reasons

theorem namesOf_solid {names : List Text} (solid : ∀ name ∈ names, name ≠ [] ∧ Solidly name) :
    namesOf names = distinct names := by
  refine namesOf_trimmed fun name member => ⟨(solid name member).1, trim_eq_self ⟨?_, ?_⟩⟩
  · exact fun c found => (solid name member).2 c (List.mem_of_head? found)
  · exact fun c found => (solid name member).2 c (List.mem_of_getLast? found)

/-- The reasons of a target that has nothing but classes. -/
theorem reasons_classes {classes : List Text} (single : classes.Nodup) (text : Text) [DecidablePred (Shows · text)] :
    ({ classes } : Identity).reasons text = (classes.filter (Shows · text)).map ("class: ".toList ++ ·) := by
  have sought : ({ classes } : Identity).features = classes.map .className := by simp [Identity.features]
  have hits : ∀ name ∈ classes, ((Feature.className name).foundIn text ||
      (Feature.className name).foundIn (Selector.expand text)) = decide (Shows name text) := by
    intro name _
    rw [Bool.eq_iff_iff, Bool.or_eq_true, decide_eq_true_iff]
    rfl
  have listed : (classes.map Feature.className).Nodup := single.map fun _ _ => Feature.className.inj
  rw [Identity.reasons, Identity.reasonsIn]
  split
  next white =>
    have none : classes.filter (Shows · text) = [] := by
      rw [List.filter_eq_nil_iff]
      intro name _ shown
      rw [shows_filled (by simpa using shown)] at white
      cases white
    rw [none, List.map_nil]
  next =>
    rw [distinct_of_nodup (List.Nodup.map reason_injective (sought ▸ listed.filter _)), sought,
      filter_map_reasons (fun _ => rfl), List.filter_congr hits]

theorem filter_or_iff {α : Type} {keeps also : α → Prop} [DecidablePred keeps] [DecidablePred also] {items : List α} :
    items.filter (fun item => keeps item ∨ also item) = items.filter (keeps ·) ↔
      ∀ item ∈ items, also item → keeps item := by
  constructor
  · intro same item member other
    have kept : item ∈ items.filter (keeps ·) := same ▸ List.mem_filter.mpr ⟨member, by simp [other]⟩
    simpa using (List.mem_filter.mp kept).2
  · intro covered
    exact List.filter_congr fun item member => decide_eq_decide.mpr (or_iff_left_of_imp (covered item member))

/-- Of the classes of a target, a compound gives those as reasons that it is put together from and those that are
mistaken for one, in their own order. It gives just the former where nothing else is mistaken. -/
theorem compound_reasons (names classes : List Text) (solid : ∀ name ∈ names, ∀ c ∈ name, isBlank c = false)
    (owned : ∀ name ∈ classes, name ≠ [] ∧ ∀ c ∈ name, isBlank c = false) :
    let identity := Identity.gather classes [] [] [] []
    identity.reasons (compound names) =
        (identity.classes.filter fun name => name ∈ names ∨ Mistaken names name).map ("class: ".toList ++ ·) ∧
      (identity.reasons (compound names) = (identity.classes.filter (· ∈ names)).map ("class: ".toList ++ ·) ↔
        ∀ name ∈ classes, Mistaken names name → name ∈ names) := by
  intro identity
  have listed : identity.classes = distinct classes := namesOf_solid owned
  have gathered : identity = { classes := distinct classes } := by
    rw [← listed]
    rfl
  have shown : ∀ name ∈ distinct classes, Shows name (compound names) ↔ name ∈ names ∨ Mistaken names name :=
    fun name member => shows_compound (owned name (mem_distinct.mp member)).1 solid
  have reasons : identity.reasons (compound names) =
      (identity.classes.filter fun name => name ∈ names ∨ Mistaken names name).map ("class: ".toList ++ ·) := by
    classical
    rw [listed, gathered, reasons_classes (nodup_distinct classes),
      List.filter_congr fun name member => decide_eq_decide.mpr (shown name member)]
  refine ⟨reasons, ?_⟩
  have injective := List.map_injective_iff.mpr (List.append_right_injective "class: ".toList)
  rw [reasons, injective.eq_iff, listed, filter_or_iff]
  simp only [mem_distinct]

/-- A class is found that is only the rest of one behind its dot. -/
theorem rest_behind_dot_is_found : ¬ ∀ names classes : List Text, names ≠ [] →
    (∀ name ∈ names, name ≠ [] ∧ ∀ c ∈ name, isBlank c = false) →
    (∀ name ∈ classes, name ≠ [] ∧ ∀ c ∈ name, isBlank c = false) →
    (Identity.gather classes [] [] [] []).reasons (compound names) =
      ((Identity.gather classes [] [] [] []).classes.filter (· ∈ names)).map ("class: ".toList ++ ·) := by
  intro every
  have found : (Identity.gather [['b']] [] [] [] []).reasons (compound ["a.b".toList]) = ["class: b".toList] := by
    decide +kernel
  have claimed := every ["a.b".toList] [['b']] (by decide) (by decide) (by decide)
  rw [found] at claimed
  exact absurd claimed (by decide)

theorem utilities_are_found :
    (Identity.gather ["2xl".toList, "b".toList, "md:flex".toList, "md".toList] [] [] [] []).reasons
      (compound ["md:flex".toList, "2xl".toList, "a.b".toList]) =
        ["class: 2xl".toList, "class: b".toList, "class: md:flex".toList] := by
  have found := (compound_reasons ["md:flex".toList, "2xl".toList, "a.b".toList]
    ["2xl".toList, "b".toList, "md:flex".toList, "md".toList] (by decide) (by decide)).1
  exact found.trans (by decide +kernel)

end Reasons

end CascadeLens.Proofs.EscapedCompounds
