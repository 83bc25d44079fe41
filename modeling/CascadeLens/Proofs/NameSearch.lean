import CascadeLens.Proofs.FeatureSearch
import CascadeLens.Proofs.NamedSelectors
import CascadeLens.Proofs.SelectorEscapes

/-! Searching a text for names. A name is found where it stands as a whole, so a text can be searched piece
by piece when each piece is followed by something that ends a name. -/

namespace CascadeLens.Proofs.NameSearch
open Text Selector TextShape SelectorWriting SelectorNames NamedSelectors FeatureSearch
open SelectorEscapes

section Letters

/-- A character of a name in ASCII. -/
def Letter (c : Char) : Prop := isAscii c = true ∧ isNameChar c = true

instance (c : Char) : Decidable (Letter c) := inferInstanceAs (Decidable (_ ∧ _))

/-- A blank, or a character of ASCII that is not part of a name. -/
def Breaks (c : Char) : Prop := isBlank c = true ∨ isAscii c = true ∧ isNameChar c = false

instance (c : Char) : Decidable (Breaks c) := inferInstanceAs (Decidable (_ ∨ _))

/-- Text that does not carry on a name in front of it. -/
def Parted (s : Text) : Prop := ∀ c, s.head? = some c → Breaks c

variable {letter c : Char} {name s t rest : Text}

theorem identifier_letters (name : Identifier) : ∀ c ∈ name.1, Letter c :=
  fun c member => ⟨identifier_ascii name c member, identifier_isNameChar name c member⟩

theorem isNameChar_of_breaks (breaks : Breaks c) : isNameChar c = false := by
  rcases breaks with white | ⟨_, other⟩
  · by_contra letter
    rw [not_blank_of_isNameChar (by simpa using letter)] at white
    cases white
  · exact other

/-- The relatives that the letters of ASCII have beyond it. -/
theorem siblings_beyond (ascii : isAscii letter = true) :
    ∀ code ∈ siblingsOf (lowerChar letter), 128 ≤ code ∧ isNameChar (Char.ofNat code) = true :=
  @every_ascii (fun letter => ∀ code ∈ siblingsOf (lowerChar letter), 128 ≤ code ∧ isNameChar (Char.ofNat code) = true)
    (by decide +kernel) letter ascii

theorem isNameChar_lower (ascii : isAscii c = true) : isNameChar (lowerChar c) = isNameChar c :=
  @every_ascii (fun c => isNameChar (lowerChar c) = isNameChar c) (by decide +kernel) c ascii

theorem lower_blank (white : isBlank c = true) : lowerChar c = c := by
  have same : ∀ code ∈ blankCodes, lowerChar (Char.ofNat code) = Char.ofNat code := by decide +kernel
  simpa [Char.ofNat_toNat] using same c.toNat (blank_code white)

theorem sameLetter_ascii (own : isAscii letter = true) (ascii : isAscii c = true) :
    sameLetter letter c = true ↔ lowerChar letter = lowerChar c := by
  have small : isAscii (lowerChar c) = true := @every_ascii (fun c => isAscii (lowerChar c) = true) (by decide) c ascii
  have far : (lowerChar c).toNat ∉ siblingsOf (lowerChar letter) := by
    intro member
    have large := (siblings_beyond own _ member).1
    simp only [isAscii, decide_eq_true_eq] at small
    omega
  simp only [sameLetter, Bool.or_eq_true, beq_iff_eq, List.contains_iff_mem, far, or_false]
  exact eq_comm

theorem sameLetter_breaks (own : Letter letter) (breaks : Breaks c) : sameLetter letter c = false := by
  have other := isNameChar_of_breaks breaks
  by_contra same
  have same : sameLetter letter c = true := by simpa using same
  rcases breaks with white | ⟨ascii, _⟩
  · have related : c = lowerChar letter ∨ c.toNat ∈ siblingsOf (lowerChar letter) := by
      simpa [sameLetter, lower_blank white] using same
    rcases related with rfl | member
    · rw [isNameChar_lower own.1, own.2] at other
      cases other
    · have named := (siblings_beyond own.1 _ member).2
      rw [Char.ofNat_toNat, other] at named
      cases named
  · have alike := (sameLetter_ascii own.1 ascii).mp same
    rw [← isNameChar_lower ascii, ← alike, isNameChar_lower own.1, own.2] at other
    cases other

theorem eq_opening (known : isAscii c = true ∨ isBlank c = true) (same : sameLetter '(' c = true) : c = '(' := by
  rcases known with ascii | white
  · have alike := (sameLetter_ascii (by decide) ascii).mp same
    exact @every_ascii (fun c => lowerChar '(' = lowerChar c → c = '(') (by decide +kernel) c ascii alike
  · have lone : siblingsOf '(' = [] := by decide
    have plain : lowerChar '(' = '(' := by decide
    simpa [sameLetter, plain, lone, lower_blank white] using same

theorem parted_cons (breaks : Breaks c) (s : Text) : Parted (c :: s) := fun _ found => Option.some.inj found ▸ breaks

theorem not_parted_of_letter (own : Letter c) (s : Text) : ¬ Parted (c :: s) := by
  intro parted
  have other := isNameChar_of_breaks (parted c rfl)
  rw [own.2] at other
  cases other

theorem parted_of_endsName (ends : endsName s = true) : Parted s := by
  intro c found
  cases s with
  | nil => cases found
  | cons d rest =>
    obtain rfl := Option.some.inj found
    have marks : ∀ mark ∈ [',', ':', '.', '[', '#', '>', '+', '~', ')'], Breaks mark := by decide
    rcases Bool.or_eq_true_iff.mp ends with white | listed
    · exact Or.inl white
    · exact marks _ (of_decide_eq_true listed)

/-- A word is read off a name exactly if they are the same in lower case. -/
theorem dropWord_run {word : Text} (own : ∀ c ∈ word, Letter c) (letters : ∀ c ∈ name, Letter c) (parted : Parted s)
    (parted' : Parted rest) :
    dropWord? word (name ++ s) = some rest ↔ word.map lowerChar = name.map lowerChar ∧ s = rest := by
  -- Along both: where one ends before the other, a letter would have to agree with what breaks a name off.
  induction word generalizing name with
  | nil =>
    cases name with
    | nil => simp [dropWord?]
    | cons c more =>
      have apart : c :: (more ++ s) ≠ rest := fun same =>
        not_parted_of_letter (letters c List.mem_cons_self) _ (same ▸ parted')
      simp [dropWord?, apart]
  | cons letter word ih =>
    obtain ⟨first, others⟩ := List.forall_mem_cons.mp own
    cases name with
    | nil =>
      cases s with
      | nil => simp [dropWord?]
      | cons c more => simp [dropWord?, sameLetter_breaks first (parted c rfl)]
    | cons c more =>
      obtain ⟨first', others'⟩ := List.forall_mem_cons.mp letters
      have same := sameLetter_ascii first.1 first'.1
      by_cases alike : lowerChar letter = lowerChar c
      · simp [dropWord?, same.mpr alike, alike, ih others others']
      · simp [dropWord?, mt same.mp alike, alike]

/-- A word with an opening parenthesis is read off a name only up to one. -/
theorem dropWord_opening {word behind : Text} (own : ∀ c ∈ word, Letter c) (letters : ∀ c ∈ name, Letter c)
    (parted : Parted s) (dropped : dropWord? (word ++ ['(']) (name ++ s) = some behind) : s = '(' :: behind := by
  induction word generalizing name with
  | nil =>
    cases name with
    | nil =>
      cases s with
      | nil => cases dropped
      | cons c more =>
        have known : isAscii c = true ∨ isBlank c = true := (parted c rfl).symm.imp_left And.left
        have opened : sameLetter '(' c = true ∧ more = behind := by simpa [dropWord?] using dropped
        rw [eq_opening known opened.1, opened.2]
    | cons c more =>
      have first := letters c List.mem_cons_self
      have opened : sameLetter '(' c = true := by
        by_contra other
        simp [dropWord?, other] at dropped
      rw [eq_opening (Or.inl first.1) opened] at first
      exact absurd first (by decide)
  | cons letter word ih =>
    obtain ⟨first, others⟩ := List.forall_mem_cons.mp own
    cases name with
    | nil =>
      cases s with
      | nil => cases dropped
      | cons c more => simp [dropWord?, sameLetter_breaks first (parted c rfl)] at dropped
    | cons c more =>
      rw [List.cons_append, List.cons_append, dropWord?] at dropped
      split at dropped
      · exact ih others (fun d member => letters d (List.mem_cons_of_mem c member)) dropped
      · cases dropped

end Letters

section Names

variable {name other : Identifier} {s : Text}

theorem escape_identifier (name : Identifier) : escape name = name := by
  have plain : ∀ c ∈ name.1, escapeChar c = [c] := by
    intro c member
    have own : isPlain c = true := by
      rcases identifier_char name c member with letter | rfl | rfl
      · simp [isPlain, letter]
      · rfl
      · rfl
    rw [escapeChar, if_pos own]
  obtain ⟨c, rest, spelt, begins, _⟩ := identifier_cons name
  have ascii := identifier_ascii name c (spelt ▸ List.mem_cons_self)
  have counted : isDigit c = false :=
    @every_ascii (fun c => c.isAlpha = true ∨ c = '_' → isDigit c = false) (by decide) c ascii begins
  have same : name.1.flatMap escapeChar = name.1 := by
    rw [List.flatMap_congr plain]
    exact List.flatMap_singleton' name.1
  rw [spelt, escape, counted, if_neg Bool.false_ne_true, ← List.flatMap_cons, ← spelt, same]

/-- Two runs of letters are the same if the same text stands before what does not carry them on. -/
theorem eq_of_runs (ends : endsName s = true) {after : Text} (ends' : endsName after = true)
    (same : other.1 ++ s = name.1 ++ after) : other = name := by
  have run : ∀ (name : Identifier) {s : Text}, endsName s = true → (name.1 ++ s).takeWhile isNameChar = name.1 := by
    intro name s ends
    have stopped : s.takeWhile isNameChar = [] :=
      takeWhile_stopped fun c found => isNameChar_of_breaks (parted_of_endsName ends c found)
    rw [List.takeWhile_append_of_pos (identifier_isNameChar name), stopped, List.append_nil]
  exact Subtype.ext (by rw [← run other ends, same, run name ends'])

theorem beginsName_identifier (ends : endsName s = true) : beginsName name (other.1 ++ s) = true ↔ other = name := by
  rw [beginsName_iff]
  constructor
  · intro ⟨form, after, whole, spelt, ends'⟩
    have plain : form = name.1 := spelt.elim id fun escaped => escaped.trans (escape_identifier name)
    exact eq_of_runs ends ends' (plain ▸ whole)
  · intro same
    exact ⟨name, s, by rw [same], Or.inl rfl, ends⟩

theorem dropWord_identifier (parted : Parted s) {rest : Text} (parted' : Parted rest) :
    dropWord? name.1 (other.1 ++ s) = some rest ↔ lower name = lower other ∧ s = rest := by
  rw [dropWord_run (identifier_letters name) (identifier_letters other) parted parted',
    lower_ascii (identifier_ascii name), lower_ascii (identifier_ascii other)]

theorem beginsTag_identifier (parted : Parted s) :
    beginsTag name.1 (other.1 ++ s) = true ↔ lower name = lower other ∧ endsName s = true := by
  rw [beginsTag, Option.any_eq_true]
  constructor
  · intro ⟨rest, dropped, ends⟩
    obtain ⟨alike, rfl⟩ := (dropWord_identifier parted (parted_of_endsName ends)).mp dropped
    exact ⟨alike, ends⟩
  · intro ⟨alike, ends⟩
    exact ⟨s, (dropWord_identifier parted parted).mpr ⟨alike, rfl⟩, ends⟩

end Names

section Features

/-- A feature with an identifier for its name. -/
def Spelt : Feature → Prop
  | .className name | .idName name | .tag name | .dataAttribute name => isIdentifier name = true

/-- The name that shows a feature in a selector. -/
def shown : Feature → Feature
  | .tag name => .tag (lower name)
  | .dataAttribute name => .dataAttribute (lower name)
  | feature => feature

/-- Whether a feature is found in what follows the start of a text. -/
def foundBehind (s : Text) : Feature → Bool
  | .tag name => hasTagBehind name s
  | feature => feature.foundIn s

/-- Whether a character and the text behind it show a feature other than an element name. -/
def beginsWith (c : Char) (s : Text) : Feature → Bool
  | .className name => c == '.' && beginsName name s
  | .idName name => c == '#' && beginsName name s
  | .tag _ => false
  | .dataAttribute name =>
    c == '[' && (dropWord? name (trimLeft s)).any fun behind => continuesAttribute (trimLeft behind)

variable {feature : Feature} {c : Char} {s : Text}

theorem foundBehind_cons (closed : opensTag c = false) :
    foundBehind (c :: s) feature = (beginsWith c s feature || foundBehind s feature) := by
  cases feature with
  | className name => rfl
  | idName name => rfl
  | tag name => simp [foundBehind, hasTagBehind, closed, beginsWith]
  | dataAttribute name => rfl

theorem foundIn_parted (spelt : Spelt feature) (parted : Parted s) : feature.foundIn s = foundBehind s feature := by
  cases feature with
  | className name => rfl
  | idName name => rfl
  | tag name =>
    have letters := identifier_letters ⟨name, spelt⟩
    have other : beginsTag name s = false := by
      cases name with
      | nil => cases spelt
      | cons letter word =>
        cases s with
        | nil => rfl
        | cons c rest =>
          simp [beginsTag, dropWord?, sameLetter_breaks (letters letter List.mem_cons_self) (parted c rfl)]
    rw [Feature.foundIn, hasTag, other, Bool.false_or, foundBehind]
  | dataAttribute name => rfl

theorem foundIn_nil (spelt : Spelt feature) : feature.foundIn [] = false := by
  rw [foundIn_parted spelt (by simp [Parted])]
  cases feature <;> rfl

/-- A character in front of which nothing can be found. -/
def Quiet (c : Char) : Prop := opensTag c = false ∧ c ∉ ['.', '#', '[']

instance (c : Char) : Decidable (Quiet c) := inferInstanceAs (Decidable (_ ∧ _))

theorem foundBehind_quiet {quiet : Text} (silent : ∀ c ∈ quiet, Quiet c) (s : Text) :
    foundBehind (quiet ++ s) feature = foundBehind s feature := by
  induction quiet with
  | nil => rfl
  | cons c rest ih =>
    obtain ⟨own, others⟩ := List.forall_mem_cons.mp silent
    have apart : c ≠ '.' ∧ c ≠ '#' ∧ c ≠ '[' := by simpa using own.2
    have nothing : beginsWith c (rest ++ s) feature = false := by cases feature <;> simp [beginsWith, apart]
    rw [List.cons_append, foundBehind_cons own.1, nothing, Bool.false_or, ih others]

theorem quiet_identifier (name : Identifier) : ∀ c ∈ name.1, Quiet c := by
  intro c member
  exact @every_ascii (fun c => isNameChar c = true → Quiet c) (by decide +kernel) c (identifier_ascii name c member)
    (identifier_isNameChar name c member)

theorem breaks_of_opensTag (opens : opensTag c = true) : Breaks c := by
  have marks : ∀ mark ∈ [',', '>', '+', '~', '('], Breaks mark := by decide
  rcases Bool.or_eq_true_iff.mp opens with white | listed
  · exact Or.inl white
  · exact marks c (of_decide_eq_true listed)

/-- Where an element name may come next, a search begins anew. -/
theorem foundBehind_opening (opens : opensTag c = true) :
    foundBehind (c :: s) feature = feature.foundIn s := by
  have silent : ∀ mark ∈ ['.', '#', '['], opensTag mark = false := by decide
  have apart : c ≠ '.' ∧ c ≠ '#' ∧ c ≠ '[' := by
    have unlisted : c ∉ ['.', '#', '['] := fun listed => by
      rw [silent c listed] at opens
      cases opens
    simpa using unlisted
  cases feature with
  | className name => simp [foundBehind, Feature.foundIn, hasMarked, apart]
  | idName name => simp [foundBehind, Feature.foundIn, hasMarked, apart]
  | tag name => simp [foundBehind, Feature.foundIn, hasTagBehind, hasTag, opens]
  | dataAttribute name => simp [foundBehind, Feature.foundIn, hasAttribute, apart]

theorem foundIn_opening (spelt : Spelt feature) (opens : opensTag c = true) :
    feature.foundIn (c :: s) = feature.foundIn s := by
  rw [foundIn_parted spelt (parted_cons (breaks_of_opensTag opens) s), foundBehind_opening opens]

theorem foundIn_openings (spelt : Spelt feature) {openings : Text} (opens : ∀ c ∈ openings, opensTag c = true) (s : Text) :
    feature.foundIn (openings ++ s) = feature.foundIn s := by
  induction openings with
  | nil => rfl
  | cons c rest ih =>
    obtain ⟨own, others⟩ := List.forall_mem_cons.mp opens
    rw [List.cons_append, foundIn_opening spelt own, ih others]

theorem foundIn_room (spelt : Spelt feature) (room : Room) (s : Text) : feature.foundIn (room ++ s) = feature.foundIn s :=
  foundIn_openings spelt (fun c member => by rw [opensTag, room.2 c member, Bool.true_or]) s

end Features

section Pieces

variable {feature : Feature} {name : Identifier} {s : Text}

/-- A name behind a mark shows what begins there and nothing else. -/
theorem found_marked (spelt : Spelt feature) (ends : endsName s = true) {mark : Char} (breaks : Breaks mark)
    (closed : opensTag mark = false) : feature.foundIn (mark :: (name ++ s)) = true ↔
      beginsWith mark (name ++ s) feature = true ∨ feature.foundIn s = true := by
  rw [foundIn_parted spelt (parted_cons breaks _), foundBehind_cons closed, Bool.or_eq_true,
    foundBehind_quiet (quiet_identifier name), foundIn_parted spelt (parted_of_endsName ends)]

theorem found_className (spelt : Spelt feature) (ends : endsName s = true) :
    feature.foundIn ('.' :: (name ++ s)) = true ↔ shown feature = .className name ∨ feature.foundIn s = true := by
  rw [found_marked spelt ends (by decide) (by decide)]
  refine or_congr_left ?_
  cases feature with
  | className own =>
    have whole := @beginsName_identifier ⟨own, spelt⟩ name s ends
    simp [beginsWith, whole, shown, Subtype.ext_iff, eq_comm]
  | idName own => simp [beginsWith, shown]
  | tag own => simp [beginsWith, shown]
  | dataAttribute own => simp [beginsWith, shown]

theorem found_idName (spelt : Spelt feature) (ends : endsName s = true) :
    feature.foundIn ('#' :: (name ++ s)) = true ↔ shown feature = .idName name ∨ feature.foundIn s = true := by
  rw [found_marked spelt ends (by decide) (by decide)]
  refine or_congr_left ?_
  cases feature with
  | className own => simp [beginsWith, shown]
  | idName own =>
    have whole := @beginsName_identifier ⟨own, spelt⟩ name s ends
    simp [beginsWith, whole, shown, Subtype.ext_iff, eq_comm]
  | tag own => simp [beginsWith, shown]
  | dataAttribute own => simp [beginsWith, shown]

theorem found_typeName (spelt : Spelt feature) (ends : endsName s = true) :
    feature.foundIn (name ++ s) = true ↔ shown feature = .tag (lower name) ∨ feature.foundIn s = true := by
  have behind := @foundBehind_quiet feature name (quiet_identifier name) s
  rw [foundIn_parted spelt (parted_of_endsName ends), ← behind]
  cases feature with
  | className own => simp [foundBehind, shown]
  | idName own => simp [foundBehind, shown]
  | tag own =>
    have first := @beginsTag_identifier ⟨own, spelt⟩ name s (parted_of_endsName ends)
    simp [foundBehind, Feature.foundIn, hasTag, first, ends, shown]
  | dataAttribute own => simp [foundBehind, shown]

/-- A colon with a name behind it shows nothing. -/
theorem found_colon (spelt : Spelt feature) (name : Identifier) (s : Text) :
    feature.foundIn (':' :: (name ++ s)) = foundBehind s feature := by
  have quiet : ∀ c ∈ ':' :: name.1, Quiet c := List.forall_mem_cons.mpr ⟨by decide, quiet_identifier name⟩
  rw [foundIn_parted spelt (parted_cons (by decide) _), ← List.cons_append, foundBehind_quiet quiet]

theorem found_mark (spelt : Spelt feature) (ends : endsName s = true) {mark : Char} (breaks : Breaks mark)
    (quiet : Quiet mark) : feature.foundIn (mark :: s) = feature.foundIn s := by
  have silent := @foundBehind_quiet feature [mark] (by simpa using quiet) s
  rw [foundIn_parted spelt (parted_cons breaks s), foundIn_parted spelt (parted_of_endsName ends)]
  exact silent

theorem found_link (spelt : Spelt feature) (link : Link) (s : Text) :
    feature.foundIn (link.text ++ s) = feature.foundIn s := by
  cases link with
  | descendant room apart => exact foundIn_room spelt room s
  | combinator before sign after =>
    have opens : opensTag sign.mark = true := by cases sign <;> rfl
    rw [Link.text, List.append_assoc, List.cons_append, foundIn_room spelt, foundIn_opening spelt opens, foundIn_room spelt]

end Pieces

section Brackets

variable {feature : Feature} {name : Identifier} {s : Text}

theorem foundBehind_room (room : Room) (same : feature.foundIn s = foundBehind s feature) (spelt : Spelt feature) :
    foundBehind (room ++ s) feature = foundBehind s feature := by
  obtain ⟨room, white⟩ := room
  cases room with
  | nil => rfl
  | cons c rest =>
    obtain ⟨own, others⟩ := List.forall_mem_cons.mp white
    have opens : opensTag c = true := by rw [opensTag, own, Bool.true_or]
    rw [List.cons_append, foundBehind_opening opens, foundIn_room spelt ⟨rest, others⟩, same]

/-- A value is not taken for an element name, because the bracket behind it does not end one. -/
theorem foundIn_value (spelt : Spelt feature) :
    feature.foundIn (name ++ ']' :: s) = foundBehind (name ++ ']' :: s) feature := by
  cases feature with
  | className own => rfl
  | idName own => rfl
  | tag own =>
    have first := @beginsTag_identifier ⟨own, spelt⟩ name (']' :: s) (parted_cons (by decide) s)
    have stays : endsName (']' :: s) = false := rfl
    have other : beginsTag own (name ++ ']' :: s) = false := by
      by_contra found
      exact absurd (first.mp (by simpa using found)).2 (by simp [stays])
    rw [Feature.foundIn, hasTag, other, Bool.false_or, foundBehind]
  | dataAttribute own => rfl

theorem foundBehind_comparison (spelt : Spelt feature) (comparison : Comparison) (s : Text) :
    foundBehind (comparison.text ++ s) feature = foundBehind s feature := by
  have equal : ∀ c ∈ ['='], Quiet c := by decide
  cases comparison with
  | oneWord =>
    rw [Comparison.text, List.cons_append, foundBehind_opening (by decide), List.singleton_append,
      foundIn_parted spelt (parted_cons (by decide) s)]
    exact foundBehind_quiet equal s
  | equal => exact foundBehind_quiet equal s
  | dashed => exact foundBehind_quiet (by decide) s
  | start => exact foundBehind_quiet (by decide) s
  | finish => exact foundBehind_quiet (by decide) s
  | inside => exact foundBehind_quiet (by decide) s

theorem parted_comparison (comparison : Comparison) (s : Text) : Parted (comparison.text ++ s) := by
  cases comparison <;> exact parted_cons (by decide) _

theorem foundBehind_condition (spelt : Spelt feature) (condition : Condition) (s : Text) :
    foundBehind (condition.text ++ ']' :: s) feature = foundBehind (']' :: s) feature := by
  simp only [Condition.text, List.append_assoc]
  rw [foundBehind_room condition.before (foundIn_parted spelt (parted_comparison _ _)) spelt,
    foundBehind_comparison spelt, foundBehind_room condition.after (foundIn_value spelt) spelt,
    foundBehind_quiet (quiet_identifier condition.value)]

theorem parted_of_continues (continues : continuesAttribute (trimLeft s) = true) : Parted s := by
  cases s with
  | nil => exact fun _ found => (nomatch found)
  | cons c rest =>
    by_cases white : isBlank c = true
    · exact parted_cons (Or.inl white) rest
    · have solid : trimLeft (c :: rest) = c :: rest := trimLeft_eq_self fun d found =>
        Option.some.inj found ▸ by simpa using white
      have signs : ∀ sign ∈ ['~', '|', '^', '$', '*'], Breaks sign := by decide
      rw [solid] at continues
      unfold continuesAttribute at continues
      split at continues
      next same => exact (List.cons.inj same).1 ▸ parted_cons (by decide) rest
      next same => exact (List.cons.inj same).1 ▸ parted_cons (by decide) rest
      next same => exact (List.cons.inj same).1 ▸ parted_cons (signs _ (of_decide_eq_true continues)) rest
      next => cases continues

theorem continues_bracket (condition : Option Condition) (s : Text) :
    continuesAttribute (trimLeft ((condition.map Condition.text).getD [] ++ ']' :: s)) = true := by
  cases condition with
  | none => rfl
  | some condition =>
    obtain ⟨before, comparison, after, value⟩ := condition
    simp only [Option.map_some, Option.getD_some, Condition.text, List.append_assoc]
    rw [trimLeft_behind_blanks before.2]
    cases comparison <;> rfl

theorem found_bracket (spelt : Spelt feature) (ends : endsName s = true) (condition : Option Condition) :
    feature.foundIn ('[' :: (name ++ ((condition.map Condition.text).getD [] ++ ']' :: s))) = true ↔
      shown feature = .dataAttribute (lower name) ∨ feature.foundIn s = true := by
  have continues := continues_bracket condition s
  have silent : foundBehind ((condition.map Condition.text).getD [] ++ ']' :: s) feature = feature.foundIn s := by
    have closed := @foundBehind_quiet feature [']'] (by decide) s
    rw [foundIn_parted spelt (parted_of_endsName ends), ← closed]
    cases condition with
    | none => rfl
    | some condition => exact foundBehind_condition spelt condition s
  generalize (condition.map Condition.text).getD [] ++ ']' :: s = behind at continues silent
  rw [foundIn_parted spelt (parted_cons (by decide) _), foundBehind_cons (by decide), Bool.or_eq_true,
    foundBehind_quiet (quiet_identifier name), silent]
  refine or_congr_left ?_
  cases feature with
  | className own => simp [beginsWith, shown]
  | idName own => simp [beginsWith, shown]
  | tag own => simp [beginsWith, shown]
  | dataAttribute own =>
    have front : trimLeft (name ++ behind) = name ++ behind := by
      apply trimLeft_eq_self
      rw [List.head?_append_of_ne_nil _ (identifier_filled name)]
      exact (identifier_solid name).trimmed.first
    have parted := parted_of_continues continues
    simp only [beginsWith, shown, front, BEq.rfl, Bool.true_and, Option.any_eq_true, Feature.dataAttribute.injEq]
    constructor
    · intro ⟨rest, dropped, more⟩
      exact ((@dropWord_identifier ⟨own, spelt⟩ name behind parted rest (parted_of_continues more)).mp dropped).1
    · intro alike
      exact ⟨behind, (@dropWord_identifier ⟨own, spelt⟩ name behind parted behind parted).mpr ⟨alike, rfl⟩, continues⟩

end Brackets

end CascadeLens.Proofs.NameSearch
