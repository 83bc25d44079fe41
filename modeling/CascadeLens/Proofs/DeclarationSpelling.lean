import CascadeLens.Proofs.DeclarationBodies
import CascadeLens.Proofs.SelectorNames

/-! Declarations spelt out. A body in which declarations stand one after the other, with pieces between them that are
no declarations, holds exactly those declarations again, whatever colons, semicolons and exclamation marks their
values are made of. -/

namespace CascadeLens.Proofs.DeclarationSpelling
open Text TextShape Selector SelectorNames NestReading DeclarationBodies

/-- Text that no semicolon cuts and that leaves no bracket, quote or escape open. -/
structure Closed (s : Text) : Prop where
  uncut : Along (Uncut (· == ';')) {} s
  shut : Nest.read {} s = {}

instance (s : Text) : Decidable (Closed s) :=
  decidable_of_iff (Along (Uncut (· == ';')) {} s ∧ Nest.read {} s = {}) ⟨fun ⟨uncut, shut⟩ => ⟨uncut, shut⟩,
    fun ⟨uncut, shut⟩ => ⟨uncut, shut⟩⟩

/-- Text that spells a word when case is ignored. -/
def Spells (word s : Text) : Prop := List.Forall₂ (fun letter c => sameLetter letter c = true) word s

/-- Text that ends with the flag of important declarations. -/
def Flagged (value : Text) : Prop :=
  ∃ front gap word, value = front ++ '!' :: (gap ++ word) ∧ (∀ c ∈ gap, isBlank c = true) ∧ Spells "important".toList word

def flag (important : Bool) : Text := if important then " !important".toList else []

/-- A declaration as it stands in a body. -/
def spelling (declaration : Declaration) : Text :=
  declaration.property ++ ':' :: ' ' :: (declaration.value ++ flag declaration.important)

/-- Small letters, digits, hyphens and underscores. -/
def isSmall (c : Char) : Bool := c.isLower || c.isDigit || c == '-' || c == '_'

structure Spellable (declaration : Declaration) : Prop where
  named : isPropertyName declaration.property = true
  plain : isCustom declaration.property = true ∨ ∀ c ∈ declaration.property, isSmall c = true
  filled : declaration.value ≠ []
  trimmed : Trimmed declaration.value
  closed : Closed declaration.value
  unflagged : ¬ Flagged declaration.value

/-- Pieces that are no declarations: without a colon, without a side of it, or with a sign in front that begins a
variable or a statement. -/
inductive Ignored (piece : Text) : Prop
  | uncoloned (absent : ':' ∉ piece)
  | nameless (before after : Text) (whole : piece = before ++ ':' :: after) (white : ∀ c ∈ before, isBlank c = true)
  | valueless (before after : Text) (whole : piece = before ++ ':' :: after) (first : ':' ∉ before)
    (white : ∀ c ∈ after, isBlank c = true)
  | signed (white rest : Text) (sign : Char) (whole : piece = white ++ sign :: rest) (blanks : ∀ c ∈ white, isBlank c = true)
    (mark : sign = '$' ∨ sign = '@')

/-- What stands in a body between two semicolons. -/
inductive Entry where
  | declared (declaration : Declaration)
  | ignored (piece : Text)

namespace Entry

def text : Entry → Text
  | declared declaration => spelling declaration
  | ignored piece => piece

def declaration? : Entry → Option Declaration
  | declared declaration => some declaration
  | ignored _ => none

def Fits : Entry → Prop
  | declared declaration => Spellable declaration
  | ignored piece => Ignored piece ∧ Closed piece

end Entry

/-- A body with the given entries. -/
def bodyWith (entries : List Entry) : Text := "; ".toList.intercalate (entries.map Entry.text)

section Closing

variable {s t : Text}

theorem Closed.append (closed : Closed s) (closed' : Closed t) : Closed (s ++ t) := by
  refine ⟨along_append.mpr ⟨closed.uncut, ?_⟩, ?_⟩
  · rw [closed.shut]
    exact closed'.uncut
  · rw [read_append, closed.shut, closed'.shut]

theorem closed_ordinary (plain : ∀ c ∈ s, ordinary c = true ∧ c ≠ ';') : Closed s := by
  refine ⟨uncut_unmarked (fun c member => ?_) {}, read_ordinary (fun c member => (plain c member).1) 0⟩
  exact beq_eq_false_iff_ne.mpr (plain c member).2

/-- A closed text is one piece of a body, and the only one. -/
theorem declarationsOf_closed (closed : Closed s) : declarationsOf s = (Declaration.ofText? (trim s)).toList := by
  rw [declarationsOf, splitTopLevel, splitTopLevelBy, topLevelFrom_uncut closed.uncut, List.reverse_nil, List.nil_append,
    List.map_singleton]
  cases rest : trim s with
  | nil => rfl
  | cons c more =>
    cases read : Declaration.ofText? (c :: more) <;> simp [read]

end Closing

section Colons

variable {mark : Char} {s before after : Text}

theorem cut_absent (absent : mark ∉ s) : cut mark s = (s, none) := by
  induction s with
  | nil => rfl
  | cons c rest ih =>
    obtain ⟨own, others⟩ := not_or.mp (mt List.mem_cons.mpr absent)
    simp [cut, Ne.symm own, ih others]

theorem cut_first (absent : mark ∉ before) (after : Text) : cut mark (before ++ mark :: after) = (before, some after) := by
  induction before with
  | nil => simp [cut]
  | cons c rest ih =>
    obtain ⟨own, others⟩ := not_or.mp (mt List.mem_cons.mpr absent)
    simp [cut, Ne.symm own, ih others]

/-- The name of a property has letters only, in a wide sense. -/
theorem letters_of_name {name : Text} (named : isPropertyName name = true) : ∀ c ∈ name, isNameChar c = true := by
  have letter : ∀ c : Char, (c.isAlpha || c == '_') = true → isNameChar c = true := by
    intro c first
    rcases Bool.or_eq_true_iff.mp first with alpha | score
    · have letters : c.isAlphanum = true := by simp [Char.isAlphanum, alpha]
      exact @every_ascii (fun c => c.isAlphanum = true → isNameChar c = true) (by decide) c
        (isAscii_of_isAlphanum letters) letters
    · rw [beq_iff_eq.mp score]
      rfl
  unfold isPropertyName at named
  split at named
  next rest => simpa [isNameChar] using named
  next c rest _ =>
    obtain ⟨first, others⟩ := Bool.and_eq_true_iff.mp named
    exact List.forall_mem_cons.mpr ⟨rfl, List.forall_mem_cons.mpr ⟨letter c first, List.all_eq_true.mp others⟩⟩
  next c rest _ _ =>
    obtain ⟨first, others⟩ := Bool.and_eq_true_iff.mp named
    exact List.forall_mem_cons.mpr ⟨letter c first, List.all_eq_true.mp others⟩
  next => cases named

theorem isPropertyName_nil : isPropertyName [] = false := rfl

theorem letter_apart {c mark : Char} (letter : isNameChar c = true) (silent : isNameChar mark = false) : c ≠ mark := by
  rintro rfl
  exact absurd (letter.symm.trans silent) (by decide)

theorem trimmed_append (filled : s ≠ []) (first : ∀ c, s.head? = some c → isBlank c = false) {t : Text} (filled' : t ≠ [])
    (last : ∀ c, t.getLast? = some c → isBlank c = false) : Trimmed (s ++ t) where
  first c found := first c (List.head?_append_of_ne_nil _ filled ▸ found)
  last c found := last c (List.getLast?_append_of_ne_nil _ filled' ▸ found)

theorem trimmed_of_letters (letters : ∀ c ∈ s, isNameChar c = true) : Trimmed s where
  first c found := not_blank_of_isNameChar (letters c (List.mem_of_head? found))
  last c found := not_blank_of_isNameChar (letters c (List.mem_of_getLast? found))

end Colons

section Flags

variable {word s rest value : Text}

theorem dropWord_spells : dropWord? word s = some rest ↔ ∃ front, s = front ++ rest ∧ Spells word front := by
  induction word generalizing s with
  | nil =>
    constructor
    · intro dropped
      exact ⟨[], Option.some.inj dropped, .nil⟩
    · rintro ⟨front, rfl, spelt⟩
      cases spelt
      rfl
  | cons letter word ih =>
    constructor
    · intro dropped
      cases s with
      | nil => cases dropped
      | cons c more =>
        rw [dropWord?] at dropped
        split at dropped
        next same =>
          obtain ⟨front, rfl, spelt⟩ := ih.mp dropped
          exact ⟨c :: front, rfl, .cons same spelt⟩
        next => cases dropped
    · rintro ⟨front, rfl, spelt⟩
      cases spelt with
      | cons same others =>
        rw [List.cons_append, dropWord?, if_pos same]
        exact ih.mpr ⟨_, rfl, others⟩

/-- Read backwards, a flag is the word, blanks and the exclamation mark. -/
theorem dropImportant_none (trimmed : Trimmed value) : dropImportant? value = none ↔ ¬ Flagged value := by
  have same : trimRight value = value := by
    have whole := trim_eq_self trimmed
    rwa [trim, trimLeft_eq_self trimmed.first] at whole
  constructor
  · rintro dropped ⟨front, gap, word, whole, white, spelt⟩
    have backwards : value.reverse = word.reverse ++ (gap.reverse ++ '!' :: front.reverse) := by simp [whole]
    have found : dropWord? "tnatropmi".toList value.reverse = some (gap.reverse ++ '!' :: front.reverse) :=
      dropWord_spells.mpr ⟨word.reverse, backwards, List.rel_reverse spelt⟩
    have solid : (gap.reverse ++ '!' :: front.reverse).dropWhile isBlank = '!' :: front.reverse := by
      rw [List.dropWhile_append_of_pos fun c member => white c (List.mem_reverse.mp member)]
      rfl
    simp only [dropImportant?, same, found, solid] at dropped
    cases dropped
  · intro unflagged
    unfold dropImportant?
    rw [same]
    split
    next => rfl
    next before dropped =>
      split
      next rest marked =>
        obtain ⟨word, backwards, spelt⟩ := dropWord_spells.mp dropped
        have gap : before = before.takeWhile isBlank ++ '!' :: rest := calc
          before = before.takeWhile isBlank ++ before.dropWhile isBlank := List.takeWhile_append_dropWhile.symm
          _ = before.takeWhile isBlank ++ '!' :: rest := by rw [marked]
        refine absurd ⟨rest.reverse, (before.takeWhile isBlank).reverse, word.reverse, ?_, ?_, ?_⟩ unflagged
        · calc
            value = before.reverse ++ word.reverse := by rw [← List.reverse_append, ← backwards, List.reverse_reverse]
            _ = (before.takeWhile isBlank ++ '!' :: rest).reverse ++ word.reverse := by rw [← gap]
            _ = rest.reverse ++ '!' :: ((before.takeWhile isBlank).reverse ++ word.reverse) := by simp
        · intro c member
          exact List.all_eq_true.mp List.all_takeWhile c (List.mem_reverse.mp member)
        · exact List.rel_reverse spelt
      next => rfl

theorem dropImportant_flag (trimmed : Trimmed value) : dropImportant? (value ++ " !important".toList) = some value := by
  have whole : trimRight (value ++ " !important".toList) = value ++ " !important".toList :=
    trimRight_append (by decide) value
  have backwards : (value ++ " !important".toList).reverse = "tnatropmi".toList ++ '!' :: ' ' :: value.reverse := by simp
  have dropped : dropWord? "tnatropmi".toList ("tnatropmi".toList ++ '!' :: ' ' :: value.reverse) =
      some ('!' :: ' ' :: value.reverse) := by
    refine dropWord_spells.mpr ⟨_, rfl, ?_⟩
    exact List.forall₂_same.mpr (by decide)
  have solid : ('!' :: ' ' :: value.reverse).dropWhile isBlank = '!' :: ' ' :: value.reverse := rfl
  have spaced : trim (' ' :: value.reverse).reverse = value := by
    rw [List.reverse_cons, List.reverse_reverse, trim_before_blanks (by decide), trim_eq_self trimmed]
  simp only [dropImportant?, whole, backwards, dropped, solid, spaced]

end Flags

section Declarations

variable {declaration : Declaration} {piece : Text}

theorem spellable_iff : Spellable declaration ↔ isPropertyName declaration.property = true ∧
    (isCustom declaration.property = true ∨ ∀ c ∈ declaration.property, isSmall c = true) ∧ declaration.value ≠ [] ∧
      trim declaration.value = declaration.value ∧ Closed declaration.value ∧ dropImportant? declaration.value = none := by
  constructor
  · rintro ⟨named, plain, filled, trimmed, closed, unflagged⟩
    exact ⟨named, plain, filled, trim_eq_self trimmed, closed, (dropImportant_none trimmed).mpr unflagged⟩
  · rintro ⟨named, plain, filled, trims, closed, dropped⟩
    have trimmed : Trimmed declaration.value := trims ▸ trim_trimmed declaration.value
    exact ⟨named, plain, filled, trimmed, closed, (dropImportant_none trimmed).mp dropped⟩

instance : Decidable (Spellable declaration) := decidable_of_iff _ spellable_iff.symm

theorem small_ascii : ∀ code < 128, isSmall (Char.ofNat code) = true → lowerChar (Char.ofNat code) = Char.ofNat code := by
  decide

theorem isAscii_of_small {c : Char} (plain : isSmall c = true) : isAscii c = true := by
  simp only [isSmall, Bool.or_eq_true, beq_iff_eq] at plain
  rcases plain with ((small | digit) | rfl) | rfl
  · have letter : c.isAlpha = true := Bool.or_eq_true_iff.mpr (.inr small)
    exact isAscii_of_isAlphanum (by simp [Char.isAlphanum, letter])
  · exact isAscii_of_isAlphanum (by simp [Char.isAlphanum, digit])
  · rfl
  · rfl

/-- In a plain name there is nothing to put in lower case. -/
theorem lower_small {name : Text} (plain : ∀ c ∈ name, isSmall c = true) : lower name = name := by
  have own : ∀ c ∈ name, lowerChar c = c := fun c member =>
    @every_ascii (fun c => isSmall c = true → lowerChar c = c) small_ascii c (isAscii_of_small (plain c member)) (plain c member)
  rw [lower_ascii fun c member => isAscii_of_small (plain c member), List.map_congr_left own, List.map_id']

theorem Spellable.closed_spelling (spellable : Spellable declaration) : Closed (spelling declaration) := by
  have name : Closed declaration.property := by
    apply closed_ordinary
    intro c member
    have letter := letters_of_name spellable.named c member
    exact ⟨ordinary_of_isNameChar letter, letter_apart letter (by decide)⟩
  have colon : Closed [':', ' '] := by decide
  have ended : Closed (flag declaration.important) := by cases declaration.important <;> decide
  exact name.append (colon.append (spellable.closed.append ended))

/-- A value with its flag, if it has one, has no blanks around it. -/
theorem Spellable.trimmed_value (spellable : Spellable declaration) :
    Trimmed (declaration.value ++ flag declaration.important) := by
  cases declaration.important with
  | false =>
    rw [show flag false = [] from rfl, List.append_nil]
    exact spellable.trimmed
  | true =>
    refine trimmed_append spellable.filled spellable.trimmed.first (by decide) ?_
    intro c found
    obtain rfl : 't' = c := Option.some.inj found
    rfl

theorem Spellable.trimmed_spelling (spellable : Spellable declaration) : Trimmed (spelling declaration) := by
  have named : declaration.property ≠ [] := by
    intro none
    have named := spellable.named
    rw [none] at named
    cases named
  have filled : declaration.value ++ flag declaration.important ≠ [] := by
    intro none
    exact spellable.filled (List.append_eq_nil_iff.mp none).1
  have whole : spelling declaration =
      (declaration.property ++ [':', ' ']) ++ (declaration.value ++ flag declaration.important) := by simp [spelling]
  rw [whole]
  refine trimmed_append (by simp [named]) ?_ filled spellable.trimmed_value.last
  intro c found
  rw [List.head?_append_of_ne_nil _ named] at found
  exact (trimmed_of_letters (letters_of_name spellable.named)).first c found

/-- The flag is found exactly where one was written. -/
theorem Spellable.dropImportant (spellable : Spellable declaration) :
    dropImportant? (declaration.value ++ flag declaration.important) =
      if declaration.important then some declaration.value else none := by
  cases declaration.important with
  | false =>
    rw [show flag false = [] from rfl, List.append_nil]
    exact (dropImportant_none spellable.trimmed).mpr spellable.unflagged
  | true => exact dropImportant_flag spellable.trimmed

/-- A declaration that is spelt out is read back. -/
theorem Spellable.read (spellable : Spellable declaration) : Declaration.ofText? (spelling declaration) = some declaration := by
  have letters := letters_of_name spellable.named
  have uncoloned : ':' ∉ declaration.property := fun member => letter_apart (letters ':' member) (by decide) rfl
  have name : trim declaration.property = declaration.property := trim_eq_self (trimmed_of_letters letters)
  have lowered : (if isCustom declaration.property then declaration.property else lower declaration.property) =
      declaration.property := by
    split
    next => rfl
    next other => exact lower_small (spellable.plain.resolve_left other)
  have value : trim (' ' :: (declaration.value ++ flag declaration.important)) =
      declaration.value ++ flag declaration.important := by
    rw [trim, ← List.singleton_append, trimLeft_behind_blanks (by decide), ← trim, trim_eq_self spellable.trimmed_value]
  have filled : (declaration.value ++ flag declaration.important).isEmpty = false := by
    cases spelt : declaration.value with
    | nil => exact absurd spelt spellable.filled
    | cons c rest => rfl
  unfold Declaration.ofText?
  rw [spelling, cut_first uncoloned]
  simp only [name, value, filled, spellable.named, lowered, spellable.dropImportant, Bool.not_true, Bool.or_self,
    Bool.false_eq_true, if_false]
  clear value filled
  obtain ⟨property, value, important⟩ := declaration
  cases important with
  | false => simp [flag]
  | true => simp [spellable.filled]

theorem ofText_signed {sign : Char} (mark : sign = '$' ∨ sign = '@') (rest : Text) :
    Declaration.ofText? (sign :: rest) = none := by
  have other : sign ≠ ':' := by rcases mark with rfl | rfl <;> decide
  have solid : isBlank sign = false := by rcases mark with rfl | rfl <;> decide
  have unnamed : ∀ name, isPropertyName (sign :: name) = false := by
    intro name
    rcases mark with rfl | rfl <;> rfl
  unfold Declaration.ofText?
  split
  next => rfl
  next before after cuts =>
    rw [cut, if_neg (by simpa using other)] at cuts
    obtain ⟨rfl, -⟩ := Prod.mk.inj cuts
    simp [trim_cons solid, unnamed]

/-- What is ignored stays no declaration when it is trimmed. -/
theorem Ignored.read (ignored : Ignored piece) : Declaration.ofText? (trim piece) = none := by
  cases ignored with
  | uncoloned absent =>
    have absent' : ':' ∉ trim piece := fun member => absent (mem_trim member)
    rw [Declaration.ofText?, cut_absent absent']
  | nameless before after whole white =>
    have first : trim piece = ':' :: trimRight after := by
      rw [whole, trim, trimLeft_behind_blanks white, ← trim, trim_cons (by decide)]
    rw [Declaration.ofText?, first, cut]
    simp [isPropertyName_nil, show trim [] = [] from rfl]
  | valueless before after whole absent white =>
    have front : trimLeft (before ++ [':']) = trimLeft before ++ [':'] := by
      rw [trimLeft, List.dropWhile_append]
      split
      next none => rw [trimLeft, List.isEmpty_iff.mp none]; rfl
      next => rfl
    have ended : trim piece = trimLeft before ++ [':'] := by
      rw [whole, List.append_cons, trim_before_blanks white, trim, front, trimRight_append (by decide)]
      rfl
    have absent' : ':' ∉ trimLeft before := fun member => absent ((List.dropWhile_suffix _).subset member)
    rw [ended, Declaration.ofText?, cut_first absent']
    rfl
  | signed white rest sign whole blanks mark =>
    have solid : isBlank sign = false := by rcases mark with rfl | rfl <;> decide
    have first : trim piece = sign :: trimRight rest := by
      rw [whole, trim, trimLeft_behind_blanks blanks, ← trim, trim_cons solid]
    rw [first, ofText_signed mark]

end Declarations

section Bodies

variable {entry : Entry}

theorem Entry.Fits.closed (fits : entry.Fits) : Closed entry.text := by
  cases entry with
  | declared declaration => exact fits.closed_spelling
  | ignored piece => exact fits.2

/-- By itself an entry is read as what it stands for. -/
theorem Entry.Fits.read (fits : entry.Fits) : declarationsOf entry.text = entry.declaration?.toList := by
  rw [declarationsOf_closed fits.closed]
  cases entry with
  | declared declaration =>
    have spellable : Spellable declaration := fits
    rw [Entry.text, trim_eq_self spellable.trimmed_spelling, spellable.read]
    rfl
  | ignored piece =>
    rw [Entry.text, fits.1.read]
    rfl

/-- A body holds the declarations that were spelt out in it, and nothing of what stands between them. -/
theorem entries_read_back (entries : List Entry) (fits : ∀ entry ∈ entries, entry.Fits) :
    declarationsOf (bodyWith entries) = entries.filterMap Entry.declaration? := by
  have body : bodyWith entries = bodyOf (entries.map fun entry => ⟨entry.text, 0⟩) := by
    rw [bodyWith, bodyOf, List.map_map]
    rfl
  have closed : ∀ raw ∈ (entries.map fun entry => (⟨entry.text, 0⟩ : RawDeclaration)).dropLast, Nest.read {} raw.text = {} := by
    intro raw early
    obtain ⟨entry, member, rfl⟩ := List.mem_map.mp (List.dropLast_subset _ early)
    exact (fits entry member).closed.shut
  have each : ∀ entry ∈ entries, declarationsOf entry.text = entry.declaration?.toList :=
    fun entry member => (fits entry member).read
  calc
    declarationsOf (bodyWith entries)
      = entries.flatMap fun entry => declarationsOf entry.text := by
        rw [body, declarationsOf_body closed, List.flatMap_map]
    _ = entries.flatMap fun entry => entry.declaration?.toList := List.flatMap_congr each
    _ = entries.filterMap Entry.declaration? := (List.filterMap_eq_flatMap_toList _ _).symm

/-- Colons, semicolons and flags inside of values, and pieces that only look like declarations. -/
def cardEntries : List Entry :=
  [.declared ⟨"--icon".toList, "url(a:b;c)".toList, false⟩, .ignored "$gap: 1px".toList,
    .declared ⟨"content".toList, "\"a; b: !important\"".toList, true⟩, .ignored "@include tile(a: b)".toList,
    .ignored "float".toList, .ignored " : red".toList, .ignored "color: ".toList,
    .declared ⟨"-ms-filter".toList, "alpha(opacity=50) !ie".toList, false⟩]

theorem card_entries_read_back : (∀ entry ∈ cardEntries, entry.Fits) ∧
    declarationsOf (bodyWith cardEntries) =
      [⟨"--icon".toList, "url(a:b;c)".toList, false⟩, ⟨"content".toList, "\"a; b: !important\"".toList, true⟩,
        ⟨"-ms-filter".toList, "alpha(opacity=50) !ie".toList, false⟩] := by
  have fits : ∀ entry ∈ cardEntries, entry.Fits := by
    simp only [cardEntries, List.forall_mem_cons, List.not_mem_nil, false_implies, implies_true, and_true, Entry.Fits]
    refine ⟨by decide, ⟨.signed [] _ '$' rfl (by decide) (.inl rfl), by decide⟩, by decide,
      ⟨.signed [] _ '@' rfl (by decide) (.inr rfl), by decide⟩, ⟨.uncoloned (by decide), by decide⟩,
      ⟨.nameless [' '] _ rfl (by decide), by decide⟩, ⟨.valueless "color".toList [' '] rfl (by decide) (by decide), by decide⟩,
      by decide⟩
  exact ⟨fits, entries_read_back cardEntries fits⟩

end Bodies

end CascadeLens.Proofs.DeclarationSpelling
