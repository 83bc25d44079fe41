import CascadeLens.Proofs.NameSearch

/-! Features as spans of a selector. A feature is found where a text that spells it stands between characters
that let it begin and end. Blanks, commas and brackets have no relatives in another case, so a span holds only
those of the name it spells, and an attribute its own bracket and the blanks inside of it. -/

namespace CascadeLens.Proofs.FeatureSpans
open Text TextShape SelectorNames FeatureSearch NameSearch

section Letters

/-- Blanks, commas and brackets. -/
def Divides (c : Char) : Prop := isBlank c = true ∨ c ∈ [',', '(', ')', '[', ']']

instance (c : Char) : Decidable (Divides c) := inferInstanceAs (Decidable (_ ∨ _))

def dividingCodes : List Nat := [',', '(', ')', '[', ']'].map Char.toNat ++ blankCodes

variable {letter c : Char} {word s after core : Text}

theorem divides_code (divides : Divides c) : c.toNat ∈ dividingCodes := by
  rcases divides with white | listed
  · exact List.mem_append_right _ (blank_code white)
  · exact List.mem_append_left _ (List.mem_map_of_mem listed)

private theorem rows_apart : ∀ row ∈ lowerRows, ∀ code ∈ dividingCodes,
    ¬ ((row.1 : Int) ≤ code - row.2.2.2 ∧ (code : Int) - row.2.2.2 ≤ row.2.1) := by
  decide +kernel

private theorem siblings_apart : ∀ entry ∈ caseSiblings, ∀ code ∈ entry.2, code ∉ dividingCodes := by
  decide +kernel

private theorem lowerCode_apart {code : Nat} (divides : lowerCode code ∈ dividingCodes) : lowerCode code = code := by
  unfold lowerCode at divides ⊢
  split at divides
  next first last step shift found =>
    have inside := List.find?_some found
    have apart := rows_apart _ (List.mem_of_find?_eq_some found) _ divides
    have large : 0 < (Int.ofNat code + shift).toNat := by
      have all : ∀ code ∈ dividingCodes, 0 < code := by decide
      exact all _ divides
    simp only [Bool.and_eq_true, decide_eq_true_eq] at inside
    simp only [Int.ofNat_eq_natCast] at apart large
    omega
  next => rfl

private theorem lowerChar_apart (divides : Divides (lowerChar letter)) : lowerChar letter = letter := by
  have code := divides_code divides
  by_cases ascii : Selector.isAscii letter = true
  · exact @every_ascii (fun letter => (lowerChar letter).toNat ∈ dividingCodes → lowerChar letter = letter)
      (by decide +kernel) letter ascii code
  · have beyond : lowerChar letter = Char.ofNat (lowerCode letter.toNat) := if_neg (by simpa [Selector.isAscii] using ascii)
    have valid : (lowerCode letter.toNat).isValidChar := by
      by_contra other
      rw [beyond, Char.ofNat, dif_neg other] at code
      exact absurd code (by decide)
    have same : (lowerChar letter).toNat = lowerCode letter.toNat := by
      rw [beyond, Char.ofNat, dif_pos valid]
      rfl
    rw [beyond, lowerCode_apart (same ▸ code), Char.ofNat_toNat]

theorem sameLetter_divides (divides : Divides c) (same : sameLetter letter c = true) : letter = c := by
  have plain : lowerChar c = c := by
    rcases divides with white | listed
    · exact lower_blank white
    · have all : ∀ mark ∈ [',', '(', ')', '[', ']'], lowerChar mark = mark := by decide +kernel
      exact all c listed
  have related : c = lowerChar letter ∨ c.toNat ∈ siblingsOf (lowerChar letter) := by
    simpa [sameLetter, plain] using same
  rcases related with rfl | member
  · exact (lowerChar_apart divides).symm
  · unfold siblingsOf at member
    cases found : caseSiblings.lookup (lowerChar letter).toNat with
    | none => simp [found] at member
    | some codes =>
      rw [found, Option.getD_some] at member
      obtain ⟨before, after, listed, _⟩ := List.lookup_eq_some_iff.mp found
      have entry : ((lowerChar letter).toNat, codes) ∈ caseSiblings := listed ▸ List.mem_append_right _ List.mem_cons_self
      exact absurd (divides_code divides) (siblings_apart _ entry _ member)

theorem sameLetter_round (same : sameLetter '(' c = true) : c = '(' := by
  have lone : siblingsOf '(' = [] := by decide
  have plain : lowerChar '(' = '(' := by decide
  have alike : lowerChar c = '(' := by simpa [sameLetter, plain, lone] using same
  have divides : Divides (lowerChar c) := Or.inr (by rw [alike]; decide)
  exact (lowerChar_apart divides).symm.trans alike

theorem dropWord_split : dropWord? word s = some after ↔ ∃ core, s = core ++ after ∧ dropWord? word core = some [] := by
  induction word generalizing s with
  | nil =>
    refine ⟨fun same => ⟨[], Option.some.inj same, rfl⟩, ?_⟩
    rintro ⟨core, rfl, empty⟩
    obtain rfl : core = [] := Option.some.inj empty
    rfl
  | cons letter word ih =>
    constructor
    · intro dropped
      cases s with
      | nil => cases dropped
      | cons c rest =>
        rw [dropWord?] at dropped
        split at dropped
        next same =>
          obtain ⟨core, rfl, whole⟩ := ih.mp dropped
          exact ⟨c :: core, rfl, by rw [dropWord?, if_pos same, whole]⟩
        next => cases dropped
    · rintro ⟨core, rfl, whole⟩
      cases core with
      | nil => cases whole
      | cons c core =>
        rw [dropWord?] at whole
        split at whole
        next same => rw [List.cons_append, dropWord?, if_pos same, ih.mpr ⟨core, rfl, whole⟩]
        next => cases whole

theorem dropWord_filled (dropped : dropWord? word core = some []) (filled : word ≠ []) : core ≠ [] := by
  rintro rfl
  cases word with
  | nil => exact filled rfl
  | cons letter word => cases dropped

/-- What divides a text divides the word that is read off it. -/
theorem divides_dropped (dropped : dropWord? word core = some []) (member : c ∈ core) (divides : Divides c) : c ∈ word := by
  induction word generalizing core with
  | nil =>
    obtain rfl := Option.some.inj dropped
    cases member
  | cons letter word ih =>
    cases core with
    | nil => cases member
    | cons d rest =>
      rw [dropWord?] at dropped
      split at dropped
      next same =>
        rcases List.mem_cons.mp member with rfl | later
        · exact sameLetter_divides divides same ▸ List.mem_cons_self
        · exact List.mem_cons_of_mem letter (ih dropped later)
      next => cases dropped

end Letters

section Spans

/-- What may stand behind the name of an attribute: the closing bracket, or an equals sign with at most one
sign in front. -/
def attributeSigns : List Text := [']'] :: ['='] :: ['~', '|', '^', '$', '*'].map fun c => [c, '=']

/-- The test of an attribute up to the sign behind its name. -/
inductive Tests (name : Text) : Text → Prop
  | test {gap word gap' sign : Text} (white : ∀ c ∈ gap, isBlank c = true) (named : dropWord? name word = some [])
      (white' : ∀ c ∈ gap', isBlank c = true) (listed : sign ∈ attributeSigns) :
      Tests name ('[' :: (gap ++ (word ++ (gap' ++ sign))))

/-- A text that spells a feature. -/
def Spans : Feature → Text → Prop
  | .className name, core => core = '.' :: name
  | .idName name, core => core = '#' :: name
  | .tag name, core => dropWord? name core = some []
  | .dataAttribute name, core => Tests name core

/-- A text behind which a feature may begin. -/
def Fronts : Feature → Text → Prop
  | .tag _, before => ∀ c, before.getLast? = some c → opensTag c = true
  | _, _ => True

/-- A text in front of which a feature may end. -/
def Backs : Feature → Text → Prop
  | .dataAttribute _, _ => True
  | _, after => endsName after = true

/-- A feature stands in a text behind one part and in front of another. -/
structure Stands (feature : Feature) (before core after : Text) : Prop where
  spans : Spans feature core
  front : Fronts feature before
  back : Backs feature after

/-- A feature whose name is not divided. -/
def Clean : Feature → Prop
  | .className name | .idName name => ∀ c ∈ name, isBlank c = false ∧ c ≠ ','
  | .tag name => name ≠ [] ∧ ∀ c ∈ name, isBlank c = false ∧ c ≠ ','
  | .dataAttribute name => name ≠ [] ∧ ∀ c ∈ name, ¬ Divides c

variable {name s : Text} {feature : Feature}

theorem continues_iff : continuesAttribute s = true ↔ ∃ sign ∈ attributeSigns, ∃ after, s = sign ++ after := by
  constructor
  · intro continues
    unfold continuesAttribute at continues
    split at continues
    next after => exact ⟨_, List.mem_cons_self, after, rfl⟩
    next after => exact ⟨_, List.mem_cons_of_mem _ List.mem_cons_self, after, rfl⟩
    next sign after _ _ =>
      have listed : [sign, '='] ∈ ['~', '|', '^', '$', '*'].map fun c => [c, '='] :=
        List.mem_map_of_mem (of_decide_eq_true continues)
      exact ⟨_, List.mem_cons_of_mem _ (List.mem_cons_of_mem _ listed), after, rfl⟩
    next => cases continues
  · rintro ⟨sign, listed, after, rfl⟩
    simp only [attributeSigns, List.map_cons, List.map_nil, List.mem_cons, List.not_mem_nil, or_false] at listed
    rcases listed with rfl | rfl | rfl | rfl | rfl | rfl | rfl <;> rfl

private theorem trimLeft_word {gap word : Text} (white : ∀ c ∈ gap, isBlank c = true) (filled : word ≠ [])
    (solid : ∀ c ∈ word, isBlank c = false) (s : Text) : trimLeft (gap ++ (word ++ s)) = word ++ s := by
  rw [trimLeft_behind_blanks white]
  obtain ⟨c, letters, rfl⟩ := List.exists_cons_of_ne_nil filled
  exact trimLeft_eq_self fun d found => Option.some.inj found ▸ solid c List.mem_cons_self

theorem hasAttribute_iff (filled : name ≠ []) (whole : ∀ c ∈ name, ¬ Divides c) :
    hasAttribute name s = true ↔ ∃ before core after, s = before ++ (core ++ after) ∧ Tests name core := by
  rw [@found_iff (hasAttribute name) (fun c rest => c == '[' && (dropWord? name (trimLeft rest)).any fun behind =>
    continuesAttribute (trimLeft behind)) rfl (fun _ _ => rfl)]
  simp only [Bool.and_eq_true, beq_iff_eq, Option.any_eq_true]
  constructor
  · rintro ⟨before, _, rest, rfl, rfl, behind, dropped, continues⟩
    obtain ⟨gap, front, white⟩ := trimLeft_spec rest
    obtain ⟨word, spelt, named⟩ := dropWord_split.mp dropped
    obtain ⟨gap', back, white'⟩ := trimLeft_spec behind
    obtain ⟨sign, listed, after, last⟩ := continues_iff.mp continues
    refine ⟨before, _, after, ?_, .test white named white' listed⟩
    rw [front, spelt, back, last]
    simp only [List.cons_append, List.append_assoc]
  · rintro ⟨before, _, after, rfl, @⟨gap, word, gap', sign, white, named, white', listed⟩⟩
    have solid : ∀ c ∈ word, isBlank c = false := by
      intro c member
      by_contra blank
      have divides : Divides c := Or.inl (by simpa using blank)
      exact whole c (divides_dropped named member divides) divides
    have signs : ∀ sign ∈ attributeSigns, sign ≠ [] ∧ ∀ c ∈ sign, isBlank c = false := by decide
    refine ⟨before, '[', gap ++ (word ++ (gap' ++ (sign ++ after))), by simp, rfl, gap' ++ (sign ++ after), ?_, ?_⟩
    · rw [trimLeft_word white (dropWord_filled named filled) solid]
      exact dropWord_split.mpr ⟨word, rfl, named⟩
    · rw [trimLeft_word white' (signs sign listed).1 (signs sign listed).2]
      exact continues_iff.mpr ⟨sign, listed, after, rfl⟩

/-- A name that is spelt without backslashes is spelt as it is. -/
theorem escape_bare (bare : '\\' ∉ Selector.escape name) : Selector.escape name = name := by
  have plain : ∀ c, '\\' ∉ Selector.escapeChar c → Selector.escapeChar c = [c] := by
    intro c bare
    unfold Selector.escapeChar at bare ⊢
    split
    · rfl
    next other =>
      rw [if_neg other] at bare
      exact absurd List.mem_cons_self bare
  cases name with
  | nil => rfl
  | cons c rest =>
    rw [Selector.escape] at bare ⊢
    split at bare
    · exact absurd List.mem_cons_self bare
    next other =>
      have own := plain c fun member => bare (List.mem_append_left _ member)
      have others : ∀ d ∈ rest, Selector.escapeChar d = [d] := fun d listed =>
        plain d fun member => bare (List.mem_append_right _ (List.mem_flatMap.mpr ⟨d, listed, member⟩))
      rw [if_neg other, own, List.flatMap_congr others, List.flatMap_singleton']
      rfl

theorem hasMarked_bare {mark : Char} (bare : '\\' ∉ s) : hasMarked mark name s = true ↔
    ∃ before after, s = before ++ (mark :: name ++ after) ∧ endsName after = true := by
  rw [hasMarked_iff]
  constructor
  · rintro ⟨before, form, after, rfl, spelt, ends⟩
    have plain : form = name := by
      refine spelt.elim id fun escaped => escaped.trans (escape_bare fun member => bare ?_)
      exact List.mem_append_right _ (List.mem_cons_of_mem mark (List.mem_append_left after (escaped ▸ member)))
    exact ⟨before, after, by rw [plain, List.cons_append], ends⟩
  · rintro ⟨before, after, rfl, ends⟩
    exact ⟨before, name, after, by rw [List.cons_append], Or.inl rfl, ends⟩

theorem beginsTag_iff : beginsTag name s = true ↔
    ∃ core after, s = core ++ after ∧ dropWord? name core = some [] ∧ endsName after = true := by
  rw [beginsTag, Option.any_eq_true]
  constructor
  · rintro ⟨after, dropped, ends⟩
    obtain ⟨core, whole, named⟩ := dropWord_split.mp dropped
    exact ⟨core, after, whole, named, ends⟩
  · rintro ⟨core, after, whole, named, ends⟩
    exact ⟨after, dropWord_split.mpr ⟨core, whole, named⟩, ends⟩

theorem hasTag_iff : hasTag name s = true ↔
    ∃ before core after, s = before ++ (core ++ after) ∧ Stands (.tag name) before core after := by
  rw [hasTag, Bool.or_eq_true, beginsTag_iff, @found_iff (hasTagBehind name) (fun c rest => opensTag c && beginsTag name rest)
    rfl (fun _ _ => rfl)]
  simp only [Bool.and_eq_true, beginsTag_iff]
  constructor
  · rintro (⟨core, after, rfl, named, ends⟩ | ⟨before, c, _, rfl, opens, core, after, rfl, named, ends⟩)
    · exact ⟨[], core, after, rfl, named, fun _ found => absurd found (by simp), ends⟩
    · refine ⟨before ++ [c], core, after, by simp, named, fun d found => ?_, ends⟩
      rw [List.getLast?_concat] at found
      exact Option.some.inj found ▸ opens
  · rintro ⟨before, core, after, rfl, named, front, ends⟩
    cases before using List.reverseRecOn with
    | nil => exact Or.inl ⟨core, after, rfl, named, ends⟩
    | append_singleton before c =>
      have opens : opensTag c = true := front c List.getLast?_concat
      exact Or.inr ⟨before, c, core ++ after, by simp, opens, core, after, rfl, named, ends⟩

/-- A feature is found exactly where it stands. -/
theorem foundIn_iff (clean : Clean feature) (bare : '\\' ∉ s) : feature.foundIn s = true ↔
    ∃ before core after, s = before ++ (core ++ after) ∧ Stands feature before core after := by
  have marked : ∀ {mark name}, hasMarked mark name s = true ↔
      ∃ before core after, s = before ++ (core ++ after) ∧ core = mark :: name ∧ endsName after = true := by
    intro mark name
    rw [hasMarked_bare bare]
    exact exists_congr fun before => ⟨fun ⟨after, whole, ends⟩ => ⟨_, after, whole, rfl, ends⟩,
      fun ⟨_, after, whole, same, ends⟩ => ⟨after, same ▸ whole, ends⟩⟩
  have shape : ∀ {before core after}, Stands feature before core after ↔
      Spans feature core ∧ Fronts feature before ∧ Backs feature after :=
    ⟨fun stands => ⟨stands.spans, stands.front, stands.back⟩, fun ⟨spans, front, back⟩ => ⟨spans, front, back⟩⟩
  cases feature with
  | className name => simpa [Feature.foundIn, shape, Spans, Fronts, Backs] using marked
  | idName name => simpa [Feature.foundIn, shape, Spans, Fronts, Backs] using marked
  | tag name => exact hasTag_iff
  | dataAttribute name => simpa [Feature.foundIn, shape, Spans, Fronts, Backs] using hasAttribute_iff clean.1 clean.2

end Spans

section Compact

/-- A span with blanks only inside of a bracket that it opens itself. -/
structure Compact (core : Text) : Prop where
  filled : core ≠ []
  trimmed : Trimmed core
  uncut : ',' ∉ core
  opened : ∀ front back, core = front ++ ' ' :: back →
    ∃ inside, front = '[' :: inside ∧ ∀ c ∈ inside, isOpener c = false ∧ isCloser c = false

variable {core : Text} {feature : Feature}

private theorem compact_of_solid (filled : core ≠ []) (solid : ∀ c ∈ core, isBlank c = false ∧ c ≠ ',') : Compact core where
  filled := filled
  trimmed := ⟨fun c first => (solid c (List.mem_of_head? first)).1, fun c last => (solid c (List.mem_of_getLast? last)).1⟩
  uncut member := (solid ',' member).2 rfl
  opened front back parted := by
    have space := (solid ' ' (parted ▸ List.mem_append_right front List.mem_cons_self)).1
    exact absurd space (by decide)

private theorem compact_of_tests {name : Text} (whole : ∀ c ∈ name, ¬ Divides c) (tests : Tests name core) : Compact core := by
  obtain @⟨gap, word, gap', sign, white, named, white', listed⟩ := tests
  have word_apart : ∀ c ∈ word, ¬ Divides c := fun c member divides => whole c (divides_dropped named member divides) divides
  have blanks_apart : ∀ c, isBlank c = true → c ≠ ',' ∧ isOpener c = false ∧ isCloser c = false := by
    intro c blank
    have all : ∀ code ∈ blankCodes, Char.ofNat code ≠ ',' ∧ isOpener (Char.ofNat code) = false ∧
        isCloser (Char.ofNat code) = false := by decide
    simpa only [Char.ofNat_toNat] using all c.toNat (blank_code blank)
  have signs : ∀ sign ∈ attributeSigns, sign ≠ [] ∧ ∀ c ∈ sign, isBlank c = false ∧ c ≠ ',' := by decide
  obtain ⟨signed, solid⟩ := signs sign listed
  have inner : ∀ c ∈ gap ++ (word ++ gap'), c ≠ ',' ∧ isOpener c = false ∧ isCloser c = false := by
    refine List.forall_mem_append.mpr ⟨fun c member => blanks_apart c (white c member), List.forall_mem_append.mpr
      ⟨fun c member => ?_, fun c member => blanks_apart c (white' c member)⟩⟩
    have other : c ∉ [',', '(', ')', '[', ']'] := fun mark => word_apart c member (Or.inr mark)
    simp only [List.mem_cons, List.not_mem_nil, or_false, not_or] at other
    simp [isOpener, isCloser, other]
  have shape : gap ++ (word ++ (gap' ++ sign)) = (gap ++ (word ++ gap')) ++ sign := by simp
  rw [shape]
  refine ⟨List.cons_ne_nil _ _, ⟨?_, ?_⟩, ?_, ?_⟩
  · intro c first
    obtain rfl := Option.some.inj first
    decide
  · intro c last
    rw [← List.cons_append, List.getLast?_append_of_ne_nil _ signed] at last
    exact (solid c (List.mem_of_getLast? last)).1
  · intro member
    rcases List.mem_cons.mp member with mark | later
    · exact absurd mark (by decide)
    · exact (List.mem_append.mp later).elim (fun early => (inner _ early).1 rfl) fun late => (solid _ late).2 rfl
  · intro front back parted
    cases front with
    | nil => exact absurd (List.cons.inj parted).1 (by decide)
    | cons first inside =>
      obtain ⟨rfl, within⟩ := List.cons.inj parted
      refine ⟨inside, rfl, fun c member => ?_⟩
      -- The blank stands in front of the sign, and so does everything before the blank.
      rcases List.append_eq_append_iff.mp within with ⟨more, _, late⟩ | ⟨more, early, _⟩
      · have space : ' ' ∈ sign := late ▸ List.mem_append_right more List.mem_cons_self
        exact absurd (solid ' ' space).1 (by decide)
      · exact (inner c (early ▸ List.mem_append_left more member)).2

theorem compact_of_spans (clean : Clean feature) (spans : Spans feature core) : Compact core := by
  cases feature with
  | className name =>
    obtain rfl : core = '.' :: name := spans
    exact compact_of_solid (List.cons_ne_nil _ _) (List.forall_mem_cons.mpr ⟨by decide, clean⟩)
  | idName name =>
    obtain rfl : core = '#' :: name := spans
    exact compact_of_solid (List.cons_ne_nil _ _) (List.forall_mem_cons.mpr ⟨by decide, clean⟩)
  | tag name =>
    refine compact_of_solid (dropWord_filled spans clean.1) fun c member => ⟨?_, ?_⟩
    · by_contra blank
      have white : isBlank c = true := by simpa using blank
      rw [(clean.2 c (divides_dropped spans member (Or.inl white))).1] at white
      cases white
    · rintro rfl
      exact (clean.2 ',' (divides_dropped spans member (Or.inr List.mem_cons_self))).2 rfl
  | dataAttribute name => exact compact_of_tests clean.2 spans

end Compact

section Seams

variable {feature : Feature} {before after left right part more s : Text} {glue : Char}

theorem fronts_append (front : Fronts feature before) (opens : ∀ c, left.getLast? = some c → opensTag c = true) :
    Fronts feature (left ++ before) := by
  cases feature with
  | tag name =>
    cases before with
    | nil => rwa [List.append_nil]
    | cons c rest =>
      intro d last
      rw [List.getLast?_append_of_ne_nil _ (List.cons_ne_nil c rest)] at last
      exact front d last
  | _ => trivial

theorem fronts_of_append (front : Fronts feature (left ++ before)) : Fronts feature before := by
  cases feature with
  | tag name =>
    intro c last
    refine front c ?_
    rw [List.getLast?_append, last]
    rfl
  | _ => trivial

private theorem endsName_append (ends : endsName after = true) (ends' : endsName right = true) :
    endsName (after ++ right) = true := by
  cases after with
  | nil => exact ends'
  | cons c rest => exact ends

private theorem endsName_of_append (ends : endsName (after ++ right) = true) : endsName after = true := by
  cases after with
  | nil => rfl
  | cons c rest => exact ends

theorem backs_append (back : Backs feature after) (ends : endsName right = true) : Backs feature (after ++ right) := by
  cases feature with
  | dataAttribute name => trivial
  | _ => exact endsName_append back ends

theorem backs_of_append (back : Backs feature (after ++ right)) : Backs feature after := by
  cases feature with
  | dataAttribute name => trivial
  | _ => exact endsName_of_append back

/-- What is found in a part of a text is found in the text if a name can begin and end at the seams. -/
theorem found_seamed (clean : Clean feature) (bare : '\\' ∉ left ++ (s ++ right))
    (opens : ∀ c, left.getLast? = some c → opensTag c = true) (ends : endsName right = true)
    (found : feature.foundIn s = true) : feature.foundIn (left ++ (s ++ right)) = true := by
  have own : '\\' ∉ s := fun member => bare (List.mem_append_right left (List.mem_append_left right member))
  obtain ⟨before, core, after, rfl, spans, front, back⟩ := (foundIn_iff clean own).mp found
  refine (foundIn_iff clean bare).mpr ⟨left ++ before, core, after ++ right, ?_, spans, ?_, ?_⟩
  · simp only [List.append_assoc]
  · exact fronts_append front opens
  · exact backs_append back ends

/-- No span of a feature reaches across a character that parts two texts. -/
def Apart (feature : Feature) (glue : Char) (part more : Text) : Prop :=
  ∀ core front back, Spans feature core → core = front ++ glue :: back → front <:+ part → ¬ back <+: more

/-- What is found in two texts is found when they are joined, and nothing else is. -/
theorem found_glued (clean : Clean feature) (bare : '\\' ∉ part ++ glue :: more) (opens : opensTag glue = true)
    (ends : endsName (glue :: more) = true) (apart : Apart feature glue part more) :
    feature.foundIn (part ++ glue :: more) = true ↔ feature.foundIn part = true ∨ feature.foundIn more = true := by
  have front_bare : '\\' ∉ part := fun member => bare (List.mem_append_left _ member)
  have back_bare : '\\' ∉ more := fun member => bare (List.mem_append_right part (List.mem_cons_of_mem glue member))
  constructor
  · intro found
    obtain ⟨before, core, after, whole, spans, front, back⟩ := (foundIn_iff clean bare).mp found
    -- The span begins behind the glue, with it, or in the part; it then ends there or would reach across.
    rcases List.append_eq_append_iff.mp whole with ⟨between, rfl, late⟩ | ⟨begun, rfl, early⟩
    · cases between with
      | nil =>
        obtain ⟨c, rest, rfl⟩ := List.exists_cons_of_ne_nil (compact_of_spans clean spans).filled
        obtain ⟨rfl, rfl⟩ := List.cons.inj late
        exact absurd (List.prefix_append rest after) (apart _ [] rest spans rfl (List.nil_suffix))
      | cons c between =>
        obtain ⟨rfl, rfl⟩ := List.cons.inj late
        have front : Fronts feature ((part ++ [glue]) ++ between) := by simpa using front
        exact Or.inr ((foundIn_iff clean back_bare).mpr ⟨between, core, after, rfl, spans, fronts_of_append front, back⟩)
    · rcases List.append_eq_append_iff.mp early with ⟨between, rfl, behind⟩ | ⟨reached, rfl, behind⟩
      · refine Or.inl ((foundIn_iff clean front_bare).mpr ⟨before, core, between, rfl, spans, front, ?_⟩)
        exact backs_of_append (behind ▸ back)
      · cases reached with
        | nil =>
          refine Or.inl ((foundIn_iff clean front_bare).mpr ⟨before, begun, [], by simp, by simpa using spans, front, ?_⟩)
          exact backs_of_append (show Backs feature ([] ++ after) from back)
        | cons c reached =>
          obtain ⟨rfl, rfl⟩ := List.cons.inj behind
          exact absurd (List.prefix_append reached after) (apart _ begun reached spans rfl (List.suffix_append before begun))
  · rintro (early | late)
    · exact @found_seamed _ [] (glue :: more) part clean bare (fun _ last => (nomatch last)) ends early
    · have shape : part ++ glue :: more = (part ++ [glue]) ++ (more ++ []) := by simp
      rw [shape] at bare ⊢
      refine found_seamed clean bare (fun c last => ?_) rfl late
      rw [List.getLast?_concat] at last
      exact Option.some.inj last ▸ opens

theorem found_nil (clean : Clean feature) : feature.foundIn [] = false := by
  by_contra found
  obtain ⟨before, core, after, whole, spans, _⟩ := (foundIn_iff clean List.not_mem_nil).mp (by simpa using found)
  obtain ⟨_, rest⟩ := List.append_eq_nil_iff.mp whole.symm
  exact (compact_of_spans clean spans).filled (List.append_eq_nil_iff.mp rest).1

/-- Blanks around a text show nothing. -/
theorem found_between_blanks (clean : Clean feature) (white : ∀ c ∈ before, isBlank c = true)
    (white' : ∀ c ∈ after, isBlank c = true) (bare : '\\' ∉ s) :
    feature.foundIn (before ++ (s ++ after)) = feature.foundIn s := by
  have plain : ∀ c, isBlank c = true → '\\' ≠ c := by
    rintro c white rfl
    cases white
  have opens : ∀ c, isBlank c = true → opensTag c = true := fun c white => by rw [opensTag, white, Bool.true_or]
  have ends : ∀ c rest, isBlank c = true → endsName (c :: rest) = true := fun c rest white => by
    rw [endsName, white, Bool.true_or]
  have behind : feature.foundIn (s ++ after) = feature.foundIn s := by
    induction after using List.reverseRecOn with
    | nil => rw [List.append_nil]
    | append_singleton after c ih =>
      obtain ⟨others, own⟩ := List.forall_mem_append.mp white'
      have blank := own c (List.mem_singleton_self c)
      have apart : Apart feature c (s ++ after) [] := by
        rintro core front back spans rfl _ last
        obtain rfl := List.prefix_nil.mp last
        have solid := (compact_of_spans clean spans).trimmed.last c List.getLast?_concat
        rw [blank] at solid
        cases solid
      have within : '\\' ∉ (s ++ after) ++ [c] := by
        simp only [List.mem_append, List.mem_singleton, not_or]
        exact ⟨⟨bare, fun member => plain _ (others _ member) rfl⟩, plain c blank⟩
      have glued := found_glued clean within (opens c blank) (ends c [] blank) apart
      rw [found_nil clean, or_iff_left Bool.false_ne_true, ← Bool.eq_iff_iff] at glued
      rw [← List.append_assoc, glued, ih others]
  have bare' : '\\' ∉ s ++ after := by
    simp only [List.mem_append, not_or]
    exact ⟨bare, fun member => plain _ (white' _ member) rfl⟩
  rw [← behind]
  generalize s ++ after = rest at bare'
  induction before with
  | nil => rfl
  | cons c before ih =>
    obtain ⟨own, others⟩ := List.forall_mem_cons.mp white
    have apart : Apart feature c [] (before ++ rest) := by
      rintro core front back spans rfl first _
      obtain rfl := List.suffix_nil.mp first
      have solid := (compact_of_spans clean spans).trimmed.first c rfl
      rw [own] at solid
      cases solid
    have within : '\\' ∉ [] ++ c :: (before ++ rest) := by
      simp only [List.nil_append, List.mem_cons, List.mem_append, not_or]
      exact ⟨plain c own, fun member => plain _ (others _ member) rfl, bare'⟩
    have glued := found_glued clean within (opens c own) (ends c _ own) apart
    rw [found_nil clean, or_iff_right Bool.false_ne_true, ← Bool.eq_iff_iff] at glued
    rw [← ih others, ← glued]
    rfl

theorem found_trim (clean : Clean feature) (bare : '\\' ∉ s) : feature.foundIn (trim s) = feature.foundIn s := by
  obtain ⟨before, after, whole, white, white'⟩ := trim_spec s
  have own : '\\' ∉ trim s := fun member => bare (whole ▸ List.mem_append_right before (List.mem_append_left after member))
  conv_rhs => rw [whole, found_between_blanks clean white white' own]

/-- What is found in texts joined by a character is found in one of them. -/
theorem found_joined {parts : List Text} (clean : Clean feature) (bare : ∀ part ∈ parts, '\\' ∉ part)
    (opens : opensTag glue = true) (ends : ∀ s, endsName (glue :: s) = true)
    (apart : ∀ part ∈ parts, ∀ more, Apart feature glue part more) :
    feature.foundIn ([glue].intercalate parts) = true ↔ ∃ part ∈ parts, feature.foundIn part = true := by
  have other : '\\' ≠ glue := by
    rintro rfl
    cases opens
  induction parts with
  | nil => simp [found_nil clean]
  | cons part rest ih =>
    obtain ⟨own, others⟩ := List.forall_mem_cons.mp bare
    obtain ⟨first, later⟩ := List.forall_mem_cons.mp apart
    cases rest with
    | nil => simp [List.intercalate_singleton]
    | cons next more =>
      have within : '\\' ∉ [glue].intercalate (part :: next :: more) := fun member =>
        (mem_intercalate member).elim other fun ⟨word, listed, inside⟩ => bare word listed inside
      rw [List.intercalate_cons_cons, List.append_assoc, List.singleton_append] at within ⊢
      have glued := found_glued clean within opens (ends _) (first _)
      have rest := ih others later
      simp only [glued, rest, List.mem_cons, exists_eq_or_imp]

end Seams

end CascadeLens.Proofs.FeatureSpans
