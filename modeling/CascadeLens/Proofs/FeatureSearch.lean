import CascadeLens.Proofs.KeyedFold
import CascadeLens.Proofs.TextShape
import CascadeLens.Target.Matcher

/-! Searching a text for a word or a feature. Each search finds what it looks for wherever it stands, and
nothing else. -/

namespace CascadeLens.Proofs.FeatureSearch
open Text TextShape KeyedFold

theorem drop_eq_some {word s rest : Text} : drop? word s = some rest ↔ s = word ++ rest := by
  induction word generalizing s with
  | nil => simp [drop?]
  | cons letter word ih =>
    cases s with
    | nil => simp [drop?]
    | cons c later =>
      by_cases same : letter = c
      · subst same
        simp [drop?, ih]
      · simp [drop?, same, Ne.symm same]

theorem beginsWith_iff {s word : Text} : beginsWith s word = true ↔ word <+: s := by
  rw [beginsWith, Option.isSome_iff_exists]
  exact exists_congr fun rest => drop_eq_some.trans eq_comm

theorem holds_iff {word s : Text} : holds word s = true ↔ word <:+: s := by
  induction s with
  | nil => simp [holds]
  | cons c rest ih => rw [holds, Bool.or_eq_true, beginsWith_iff, ih, List.infix_cons_iff]

/-- A search that looks at every place of a text in turn. -/
theorem found_iff {search : Text → Bool} {here : Char → Text → Bool} (ended : search [] = false)
    (onward : ∀ c rest, search (c :: rest) = (here c rest || search rest)) {s : Text} :
    search s = true ↔ ∃ before c rest, s = before ++ c :: rest ∧ here c rest = true := by
  induction s with
  | nil => simp [ended]
  | cons d later ih =>
    rw [onward, Bool.or_eq_true, ih]
    constructor
    · rintro (own | ⟨before, c, rest, rfl, found⟩)
      · exact ⟨[], d, later, rfl, own⟩
      · exact ⟨d :: before, c, rest, rfl, found⟩
    · rintro ⟨before, c, rest, whole, found⟩
      cases before with
      | nil =>
        obtain ⟨rfl, rfl⟩ := List.cons.inj whole
        exact Or.inl found
      | cons e before =>
        obtain ⟨rfl, rfl⟩ := List.cons.inj whole
        exact Or.inr ⟨before, c, rest, rfl, found⟩

theorem beginsName_iff {name s : Text} : beginsName name s = true ↔
    ∃ form after, s = form ++ after ∧ (form = name ∨ form = Selector.escape name) ∧ endsName after = true := by
  simp only [beginsName, List.any_cons, List.any_nil, Bool.or_false, Bool.or_eq_true, Option.any_eq_true, drop_eq_some]
  constructor
  · rintro (⟨after, whole, ends⟩ | ⟨after, whole, ends⟩)
    · exact ⟨name, after, whole, Or.inl rfl, ends⟩
    · exact ⟨Selector.escape name, after, whole, Or.inr rfl, ends⟩
  · rintro ⟨form, after, whole, rfl | rfl, ends⟩
    · exact Or.inl ⟨after, whole, ends⟩
    · exact Or.inr ⟨after, whole, ends⟩

/-- A marked name is found where it stands as a whole, plain or escaped. -/
theorem hasMarked_iff {mark : Char} {name s : Text} : hasMarked mark name s = true ↔
    ∃ before form after, s = before ++ mark :: (form ++ after) ∧ (form = name ∨ form = Selector.escape name) ∧
      endsName after = true := by
  rw [@found_iff (hasMarked mark name) (fun c rest => c == mark && beginsName name rest) rfl (fun _ _ => rfl)]
  simp only [Bool.and_eq_true, beq_iff_eq, beginsName_iff]
  constructor
  · rintro ⟨before, _, _, whole, rfl, form, after, rfl, spelt, ends⟩
    exact ⟨before, form, after, whole, spelt, ends⟩
  · rintro ⟨before, form, after, whole, spelt, ends⟩
    exact ⟨before, mark, form ++ after, whole, rfl, form, after, rfl, spelt, ends⟩

section Expansion

theorem dropWord_suffix {word s rest : Text} (dropped : dropWord? word s = some rest) : rest <:+ s := by
  induction word generalizing s with
  | nil => exact Option.some.inj dropped ▸ List.suffix_refl _
  | cons letter word ih =>
    cases s with
    | nil => cases dropped
    | cons c more =>
      rw [dropWord?] at dropped
      split at dropped
      · exact (ih dropped).trans (List.suffix_cons c more)
      · cases dropped

theorem functionAt_suffix {s behind : Text} (opened : Selector.functionAt? s = some behind) : behind <:+ s := by
  unfold Selector.functionAt? at opened
  split at opened
  next rest =>
    obtain ⟨word, _, dropped⟩ := List.exists_of_findSome?_eq_some opened
    exact (dropWord_suffix dropped).trans (List.suffix_cons ':' rest)
  next => cases opened

theorem argumentsOf_part (behind : Text) : Selector.argumentsOf behind <:+: behind := by
  have trimmed : ∀ s : Text, trim s <:+: s := by
    intro s
    obtain ⟨before, after, whole, _⟩ := trim_spec s
    exact ⟨before, after, by rw [List.append_assoc, ← whole]⟩
  unfold Selector.argumentsOf
  split
  next length _ => exact (trimmed _).trans (List.take_prefix length behind).isInfix
  next => exact trimmed behind

/-- The arguments of the functions of a selector are parts of it. -/
theorem arguments_part {s argument : Text} (member : argument ∈ Selector.arguments s) : argument <:+: s := by
  induction s with
  | nil => cases member
  | cons c rest ih =>
    rw [Selector.arguments] at member
    split at member
    next behind opened =>
      dsimp only at member
      split at member
      · exact List.infix_cons (ih member)
      · rcases List.mem_cons.mp member with rfl | later
        · exact (argumentsOf_part behind).trans (functionAt_suffix opened).isInfix
        · exact List.infix_cons (ih later)
    next => exact List.infix_cons (ih member)

theorem arguments_behind {quiet : Text} (uncoloned : ':' ∉ quiet) (s : Text) :
    Selector.arguments (quiet ++ s) = Selector.arguments s := by
  induction quiet with
  | nil => rfl
  | cons c rest ih =>
    have other : c ≠ ':' := fun same => uncoloned (same ▸ List.mem_cons_self)
    have none : Selector.functionAt? (c :: (rest ++ s)) = none := by simp [Selector.functionAt?, other]
    rw [List.cons_append, Selector.arguments, none]
    exact ih fun later => uncoloned (List.mem_cons_of_mem _ later)

theorem arguments_uncoloned {s : Text} (uncoloned : ':' ∉ s) : Selector.arguments s = [] := by
  have nothing := arguments_behind uncoloned []
  rwa [List.append_nil] at nothing

theorem mem_expand {s : Text} {c : Char} (member : c ∈ Selector.expand s) : c = ' ' ∨ c ∈ s := by
  have parts : ∀ part ∈ s :: Selector.arguments s, part <:+: s :=
    List.forall_mem_cons.mpr ⟨List.infix_refl s, fun _ inside => arguments_part inside⟩
  rcases mem_intercalate member with space | ⟨part, listed, inside⟩
  · exact Or.inl space
  · exact Or.inr ((parts part listed).subset inside)

end Expansion

section Reasons

theorem namesOf_trimmed {names : List Text} (trimmed : ∀ name ∈ names, name ≠ [] ∧ trim name = name) :
    namesOf names = distinct names := by
  have filled : ∀ name ∈ names, (!name.isEmpty) = true := fun name member => by simpa using (trimmed name member).1
  rw [namesOf, List.map_congr_left fun name member => (trimmed name member).2, List.map_id', List.filter_eq_self.mpr filled]

/-- A selector shows a class where its name stands in it or in its expanded form. -/
def Shows (name text : Text) : Prop := hasMarked '.' name text = true ∨ hasMarked '.' name (Selector.expand text) = true

theorem mem_of_marked {mark : Char} {name s : Text} (marked : hasMarked mark name s = true) : mark ∈ s := by
  obtain ⟨before, form, after, rfl, _⟩ := hasMarked_iff.mp marked
  exact List.mem_append_right before List.mem_cons_self

theorem shows_filled {name text : Text} (shown : Shows name text) : blank text = false := by
  have dotted : '.' ∈ text := by
    rcases shown with plain | expanded
    · exact mem_of_marked plain
    · exact (mem_expand (mem_of_marked expanded)).resolve_left (by decide)
  by_contra white
  have all : ∀ c ∈ text, isBlank c = true := by simpa [blank] using white
  exact absurd (all _ dotted) (by decide)

variable {identity : Identity} {text : Text}

theorem reason_of_shows {name : Text} (listed : name ∈ identity.classes) (shown : Shows name text) :
    (Feature.className name).reason ∈ identity.reasons text := by
  rw [Identity.reasons, Identity.reasonsIn, shows_filled shown, if_neg Bool.false_ne_true, mem_distinct]
  refine List.mem_map_of_mem (List.mem_filter.mpr ⟨?_, ?_⟩)
  · simp [Identity.features, listed]
  · simpa [Feature.foundIn, Shows] using shown

theorem feature_of_reason {reason : Text} (given : reason ∈ identity.reasons text) :
    ∃ feature ∈ identity.features, reason = feature.reason := by
  unfold Identity.reasons Identity.reasonsIn at given
  split at given
  · cases given
  · obtain ⟨feature, member, rfl⟩ := List.mem_map.mp (mem_distinct.mp given)
    exact ⟨feature, (List.mem_filter.mp member).1, rfl⟩

end Reasons

end CascadeLens.Proofs.FeatureSearch
