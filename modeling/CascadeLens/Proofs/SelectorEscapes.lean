import CascadeLens.Proofs.SelectorNames
import Mathlib.Data.List.Chain

/-! Names with escapes in them, as they stand before the rest of a text. A name stays a name where less of
the text follows it, and where it loses a blank that ends its last escape. -/

namespace CascadeLens.Proofs.SelectorEscapes
open Text Selector TextShape SelectorNames

/-- The number of a character. -/
structure Code (digits : Text) : Prop where
  filled : digits ≠ []
  hex : ∀ c ∈ digits, isHexDigit c = true
  short : digits.length ≤ 6

/-- What follows a backslash, up to the rest of the text. -/
inductive Escape (rest : Text) : Text → Prop
  | char {c : Char} (other : isHexDigit c = false) (line : c ≠ '\n') : Escape rest [c]
  | code {digits : Text} (code : Code digits) (ends : digits.length = 6 ∨ ∀ c, rest.head? = some c → isHexDigit c = false)
      (solid : ∀ c, rest.head? = some c → isBlank c = false) : Escape rest digits
  | spaced {digits : Text} {space : Char} (code : Code digits) (white : isBlank space = true) :
    Escape rest (digits ++ [space])

def isLetter (c : Char) : Bool := isNameChar c || !isAscii c

/-- All of the name that stands before the rest of a text. -/
inductive Name (rest : Text) : Text → Prop
  | ended (none : nameLength rest = 0) : Name rest []
  | letter {c : Char} {name : Text} (letter : isLetter c = true) (more : Name rest name) : Name rest (c :: name)
  | escaped {escape name : Text} (own : Escape (name ++ rest) escape) (more : Name rest name) :
    Name rest ('\\' :: (escape ++ name))

section Escapes

variable {s rest less escape : Text} {c : Char}

theorem letter_of_hex (hex : isHexDigit c = true) : isNameChar c = true := by
  have ascii : isAscii c = true := by
    simp only [isHexDigit, Char.isDigit, Bool.or_eq_true, Bool.and_eq_true, decide_eq_true_eq, UInt32.le_iff_toNat_le,
      Char.le_def] at hex
    have digit : '9'.val.toNat = 57 := rfl
    have small : 'f'.val.toNat = 102 := rfl
    have capital : 'F'.val.toNat = 70 := rfl
    have code : c.toNat = c.val.toNat := rfl
    simp only [isAscii, decide_eq_true_eq]
    omega
  exact @every_ascii (fun c => isHexDigit c = true → isNameChar c = true) (by decide) c ascii hex

theorem not_hex_of_blank (white : isBlank c = true) : isHexDigit c = false := by
  by_contra hex
  have solid := not_blank_of_isNameChar (letter_of_hex (by simpa using hex))
  exact absurd (white.symm.trans solid) (by decide)

theorem head_shorter {α : Type} {less rest : List α} (shorter : less <+: rest) {p : α → Prop}
    (first : ∀ c, rest.head? = some c → p c) :
    ∀ c, less.head? = some c → p c := by
  obtain ⟨more, rfl⟩ := shorter
  intro c found
  exact first c (by rw [List.head?_append, found]; rfl)

theorem Escape.truncate (own : Escape rest escape) (shorter : less <+: rest) : Escape less escape := by
  cases own with
  | char other line => exact .char other line
  | code code ends solid => exact .code code (ends.imp_right (head_shorter shorter)) (head_shorter shorter solid)
  | spaced code white => exact .spaced code white

theorem Escape.filled (own : Escape rest escape) : escape ≠ [] := by
  cases own with
  | char => simp
  | code code => exact code.filled
  | spaced code => simp

theorem takeWhile_stopped {α : Type} {p : α → Bool} {s : List α} (stopped : ∀ c, s.head? = some c → p c = false) :
    s.takeWhile p = [] := by
  cases s with
  | nil => rfl
  | cons c rest => simp [stopped c rfl]

private theorem hex_run {digits : Text} (code : Code digits)
    (ends : digits.length = 6 ∨ ∀ c, rest.head? = some c → isHexDigit c = false) :
    ((digits ++ rest).take 6).takeWhile isHexDigit = digits := by
  have stopped : (rest.take (6 - digits.length)).takeWhile isHexDigit = [] := by
    rcases ends with full | stops
    · rw [full, Nat.sub_self, List.take_zero, List.takeWhile_nil]
    · exact takeWhile_stopped (head_shorter (List.take_prefix _ rest) stops)
  rw [List.take_append, List.take_of_length_le code.short, List.takeWhile_append_of_pos code.hex, stopped, List.append_nil]

theorem Escape.length (own : Escape rest escape) : escapeLength (escape ++ rest) = escape.length := by
  cases own with
  | char other line => simp [escapeLength, other, line]
  | code code ends solid =>
    have filled : escape.length ≠ 0 := by simpa using code.filled
    simp only [escapeLength.eq_def, hex_run code ends, List.drop_left, beq_iff_eq, filled, if_false]
    cases rest with
    | nil => rfl
    | cons c more => simp [solid c rfl]
  | spaced code white =>
    rename_i digits space
    have filled : digits.length ≠ 0 := by simpa using code.filled
    have other : isHexDigit space = false := not_hex_of_blank white
    have run : ((digits ++ space :: rest).take 6).takeWhile isHexDigit = digits :=
      hex_run code (Or.inr (by simp [other]))
    rw [List.append_assoc, List.singleton_append]
    simp [escapeLength.eq_def, run, filled, white]

/-- A run of digits that is cut short is a full one. -/
private theorem full_or_stopped {digits tail : Text} (hex : ∀ c ∈ digits, isHexDigit c = true) (short : digits.length ≤ 6)
    (run : ((digits ++ tail).take 6).takeWhile isHexDigit = digits) :
    digits.length = 6 ∨ ∀ c, tail.head? = some c → isHexDigit c = false := by
  by_cases full : digits.length = 6
  · exact Or.inl full
  right
  intro c first
  obtain ⟨more, rfl⟩ := List.head?_eq_some_iff.mp first
  obtain ⟨room, left⟩ : ∃ room, 6 - digits.length = room + 1 := ⟨5 - digits.length, by omega⟩
  rw [List.take_append, List.take_of_length_le short, left, List.take_succ_cons, List.takeWhile_append_of_pos hex] at run
  have stopped : (c :: more.take room).takeWhile isHexDigit = [] :=
    List.append_cancel_left (run.trans (List.append_nil digits).symm)
  by_contra hexadecimal
  rw [List.takeWhile_cons, if_pos (by simpa using hexadecimal)] at stopped
  cases stopped

/-- What an escape takes in is one. -/
theorem escape_of_length {extra : Nat} (length : escapeLength s = extra + 1) :
    Escape (s.drop (extra + 1)) (s.take (extra + 1)) := by
  obtain ⟨digits, run⟩ : ∃ digits, (s.take 6).takeWhile isHexDigit = digits := ⟨_, rfl⟩
  have hex : ∀ c ∈ digits, isHexDigit c = true := run ▸ List.all_eq_true.mp List.all_takeWhile
  have short : digits.length ≤ 6 := run ▸ Nat.le_trans (List.takeWhile_prefix _).length_le (List.length_take_le 6 s)
  obtain ⟨tail, rfl⟩ : ∃ tail, s = digits ++ tail :=
    ⟨(s.take 6).dropWhile isHexDigit ++ s.drop 6, by
      rw [← run, ← List.append_assoc, List.takeWhile_append_dropWhile, List.take_append_drop]⟩
  have ends := full_or_stopped hex short run
  simp only [escapeLength.eq_def, run, List.drop_left, beq_iff_eq] at length
  cases digits with
  | nil =>
    cases tail with
    | nil => simp at length
    | cons c more =>
      have other : isHexDigit c = false := (ends.resolve_left (by simp)) c rfl
      by_cases line : c = '\n'
      · simp [line] at length
      · obtain rfl : extra = 0 := by simpa [line] using length
        exact .char other line
  | cons d digits =>
    have code : Code (d :: digits) := ⟨by simp, hex, short⟩
    rw [if_neg (by simp)] at length
    cases tail with
    | nil =>
      rw [← length, List.drop_left, List.take_left]
      exact .code code (Or.inr (by simp)) (by simp)
    | cons c more =>
      by_cases white : isBlank c = true
      · have whole : (d :: digits) ++ c :: more = ((d :: digits) ++ [c]) ++ more := by simp
        have size : extra + 1 = ((d :: digits) ++ [c]).length := by simpa [white] using length.symm
        rw [whole, size, List.drop_left, List.take_left]
        exact .spaced code white
      · have size : extra + 1 = (d :: digits).length := by simpa [white] using length.symm
        rw [size, List.drop_left, List.take_left]
        refine .code code ends fun e first => ?_
        obtain rfl := Option.some.inj first
        simpa using white

end Escapes

section Names

variable {s rest less name : Text} {c : Char}

theorem letter_not_escape (letter : isLetter c = true) : c ≠ '\\' := by
  rintro rfl
  exact absurd letter (by decide)

theorem nameLength_letter (letter : isLetter c = true) (rest : Text) : nameLength (c :: rest) = nameLength rest + 1 := by
  rw [nameLength, if_neg (by simpa using letter_not_escape letter), if_pos (by exact letter), Nat.add_comm]

theorem nameLength_escape {extra : Nat} (length : escapeLength rest = extra + 1) :
    nameLength ('\\' :: rest) = nameLength (rest.drop (extra + 1)) + (extra + 2) := by
  rw [nameLength, if_pos (by decide), length]
  exact Nat.add_comm _ _

theorem Name.length (own : Name rest name) : nameLength (name ++ rest) = name.length := by
  induction own with
  | ended none => exact none
  | letter letter more ih => rw [List.cons_append, nameLength_letter letter, ih, List.length_cons]
  | @escaped escape name own more ih =>
    obtain ⟨extra, size⟩ := Nat.exists_eq_succ_of_ne_zero (mt List.length_eq_zero_iff.mp own.filled)
    rw [List.cons_append, List.append_assoc, nameLength_escape (own.length.trans size), ← Nat.succ_eq_add_one extra, ← size,
      List.drop_left, ih, List.length_cons, List.length_append]
    omega

/-- What is taken for the name at the front of a text is one. -/
theorem name_of_length (s : Text) : Name (s.drop (nameLength s)) (s.take (nameLength s)) := by
  fun_induction nameLength s with
  | case1 => exact .ended (by simp [nameLength])
  | case2 c rest escape none => exact .ended (by simp [nameLength.eq_def, escape, none])
  | case3 c rest escape extra length ih =>
    obtain rfl : c = '\\' := by simpa using escape
    have own := escape_of_length length
    have size := own.length
    rw [List.take_append_drop, length] at size
    have later : (rest.drop (extra + 1)).take (nameLength (rest.drop (extra + 1))) ++
        (rest.drop (extra + 1)).drop (nameLength (rest.drop (extra + 1))) = rest.drop (extra + 1) :=
      List.take_append_drop _ _
    rw [← later] at own
    rw [Nat.add_right_comm, List.drop_succ_cons, List.take_succ_cons, Nat.add_right_comm, List.take_add, ← List.drop_drop]
    exact .escaped own ih
  | case4 c rest escape letter ih =>
    rw [Nat.add_comm, List.drop_succ_cons, List.take_succ_cons]
    exact .letter letter ih
  | case5 c rest escape other => exact .ended (by simp [nameLength.eq_def, escape, other])

/-- Only a line feed follows a backslash that begins no escape. -/
theorem escapeLength_eq_zero {s : Text} : escapeLength s = 0 ↔ ∀ c, s.head? = some c → c = '\n' := by
  cases s with
  | nil => simp [escapeLength]
  | cons c rest =>
    by_cases hex : isHexDigit c = true
    · have line : c ≠ '\n' := by
        rintro rfl
        exact absurd hex (by decide)
      have filled : escapeLength (c :: rest) ≠ 0 := by
        rw [escapeLength.eq_def, List.take_succ_cons, List.takeWhile_cons, if_pos hex, List.length_cons]
        dsimp only
        rw [if_neg (by simp)]
        split
        · exact Nat.succ_ne_zero _
        · split <;> exact Nat.succ_ne_zero _
      simp [filled, line]
    · simp [escapeLength.eq_def, hex]

/-- Where a name has ended, it ends before less of the rest too. -/
private theorem ended_truncate (none : nameLength rest = 0) (shorter : less <+: rest) : nameLength less = 0 := by
  cases less with
  | nil => simp [nameLength]
  | cons c more =>
    obtain ⟨later, rfl⟩ := shorter
    rw [List.cons_append] at none
    by_cases letter : isLetter c = true
    · rw [nameLength_letter letter] at none
      cases none
    by_cases escape : c = '\\'
    · subst escape
      have whole : escapeLength (more ++ later) = 0 := by
        cases length : escapeLength (more ++ later) with
        | zero => rfl
        | succ extra =>
          rw [nameLength_escape length] at none
          cases none
      have stopped : escapeLength more = 0 :=
        escapeLength_eq_zero.mpr (head_shorter (List.prefix_append more later) (escapeLength_eq_zero.mp whole))
      simp [nameLength.eq_def, stopped]
    · simp only [isLetter] at letter
      simp [nameLength.eq_def, escape, letter]

theorem Name.truncate (own : Name rest name) (shorter : less <+: rest) : Name less name := by
  induction own with
  | ended none => exact .ended (ended_truncate none shorter)
  | letter letter more ih => exact .letter letter ih
  | escaped own more ih => exact .escaped (own.truncate ((List.prefix_append_right_inj _).mpr shorter)) ih

end Names

/-- Text in which nothing but names hides behind a backslash, and nothing behind the marks of a comment. -/
structure Clear (s : Text) : Prop where
  ascii : ∀ c ∈ s, isBlank c = true → isAscii c = true
  escapes : s.IsChain (fun a b => a = '\\' → isBlank b = false)
  comments : s.IsChain (fun a b => a = '/' → b ≠ '*')

theorem Clear.part {s t : Text} (clear : Clear s) (part : t <:+: s) : Clear t :=
  ⟨fun c member => clear.ascii c (part.subset member), clear.escapes.infix part, clear.comments.infix part⟩

theorem Clear.left {s t : Text} (clear : Clear (s ++ t)) : Clear s := clear.part (List.prefix_append s t).isInfix

theorem Clear.right {s t : Text} (clear : Clear (s ++ t)) : Clear t := clear.part (List.suffix_append s t).isInfix

theorem Clear.tail {c : Char} {s : Text} (clear : Clear (c :: s)) : Clear s := clear.part (List.suffix_cons c s).isInfix

theorem Clear.drop {s : Text} (clear : Clear s) (count : Nat) : Clear (s.drop count) :=
  clear.part (List.drop_suffix count s).isInfix

/-- Text with ASCII blanks only, and with nothing behind the marks of a comment. -/
structure Bare (s : Text) : Prop where
  ascii : ∀ c ∈ s, isBlank c = true → isAscii c = true
  comments : s.IsChain (fun a b => a = '/' → b ≠ '*')

instance (s : Text) : Decidable (Bare s) :=
  decidable_of_iff ((∀ c ∈ s, isBlank c = true → isAscii c = true) ∧ s.IsChain fun a b => a = '/' → b ≠ '*')
    ⟨fun both => ⟨both.1, both.2⟩, fun bare => ⟨bare.ascii, bare.comments⟩⟩

theorem Clear.bare {s : Text} (clear : Clear s) : Bare s := ⟨clear.ascii, clear.comments⟩

theorem Bare.part {s t : Text} (bare : Bare s) (part : t <:+: s) : Bare t :=
  ⟨fun c member => bare.ascii c (part.subset member), bare.comments.infix part⟩

theorem Bare.right {s t : Text} (bare : Bare (s ++ t)) : Bare t := bare.part (List.suffix_append s t).isInfix

theorem Bare.left {s t : Text} (bare : Bare (s ++ t)) : Bare s := bare.part (List.prefix_append s t).isInfix

theorem Bare.tail {c : Char} {s : Text} (bare : Bare (c :: s)) : Bare s := bare.part (List.suffix_cons c s).isInfix

/-- The second text is the first without the blanks at its end, of which only an escape may have any. -/
structure Shortened (long short : Text) : Prop where
  blanks : ∃ after, long = short ++ after ∧ ∀ c ∈ after, isBlank c = true
  last : ∀ c, short.getLast? = some c → isBlank c = false
  same : short = long ∨ '\\' ∈ short

section Shortened

variable {s t rest name : Text} {c : Char}

theorem Shortened.shorter (shortened : Shortened s t) : t <+: s := by
  obtain ⟨after, whole, -⟩ := shortened.blanks
  exact whole ▸ List.prefix_append t after

theorem Shortened.trimRight (shortened : Shortened s t) : trimRight s = t := by
  obtain ⟨after, rfl, white⟩ := shortened.blanks
  have reversed : t.reverse.dropWhile isBlank = t.reverse :=
    trimLeft_eq_self fun c found => shortened.last c (by rwa [List.head?_reverse] at found)
  rw [trimRight_before_blanks white, Text.trimRight, reversed, List.reverse_reverse]

theorem Shortened.self (last : ∀ c, s.getLast? = some c → isBlank c = false) : Shortened s s :=
  ⟨⟨[], (List.append_nil s).symm, by simp⟩, last, Or.inl rfl⟩

/-- Text in front changes nothing, unless all that stands behind it is left out. -/
theorem Shortened.behind (shortened : Shortened s t) (before : Text) (filled : t ≠ []) :
    Shortened (before ++ s) (before ++ t) := by
  obtain ⟨after, whole, white⟩ := shortened.blanks
  refine ⟨⟨after, by rw [whole, List.append_assoc], white⟩, ?_, ?_⟩
  · intro c found
    rw [List.getLast?_append_of_ne_nil _ filled] at found
    exact shortened.last c found
  · exact shortened.same.imp (congrArg (before ++ ·)) (List.mem_append_right before)

theorem Shortened.filled (shortened : Shortened s t) (filled : s ≠ []) : t ≠ [] := by
  rcases shortened.same with rfl | escape
  · exact filled
  · exact List.ne_nil_of_mem escape

theorem Shortened.closed {c : Char} (solid : isBlank c = false) : Shortened (s ++ [c]) (s ++ [c]) :=
  .self fun d found => by
    obtain rfl : c = d := by simpa using found
    exact solid

theorem letter_not_blank (ascii : isBlank c = true → isAscii c = true) (letter : isLetter c = true) :
    isBlank c = false := by
  by_contra white
  have white : isBlank c = true := by simpa using white
  rw [isLetter, ascii white, Bool.not_true, Bool.or_false] at letter
  exact absurd (white.symm.trans (not_blank_of_isNameChar letter)) (by decide)

theorem hex_last {digits : Text} (code : Code digits) : ∀ c, digits.getLast? = some c → isBlank c = false :=
  fun c found => not_blank_of_isNameChar (letter_of_hex (code.hex c (List.mem_of_getLast? found)))

theorem Escape.shorten {escape : Text} (own : Escape [] escape) (first : ∀ c, escape.head? = some c → isBlank c = false) :
    ∃ short, Escape [] short ∧ Shortened ('\\' :: escape) ('\\' :: short) := by
  cases own with
  | char other line => exact ⟨_, .char other line, .self fun c found => first c (by simpa using found)⟩
  | code code ends solid =>
    have kept := (Shortened.self (hex_last code)).behind ['\\'] code.filled
    exact ⟨_, .code code ends solid, kept⟩
  | @spaced digits space code white =>
    have last := (Shortened.self (hex_last code)).behind ['\\'] code.filled
    refine ⟨digits, .code code (Or.inr nofun) nofun, ⟨[space], by simp, by simpa using white⟩, last.last,
      Or.inr List.mem_cons_self⟩

theorem Name.shorten (own : Name [] name) (clear : Clear name) : ∃ short, Name [] short ∧ Shortened name short := by
  induction own with
  | ended none => exact ⟨[], .ended none, .self nofun⟩
  | @letter c name letter more ih =>
    obtain ⟨short, rest, shortened⟩ := ih clear.tail
    refine ⟨c :: short, .letter letter rest, ?_⟩
    cases short with
    | nil =>
      obtain rfl : [] = name := shortened.same.resolve_right List.not_mem_nil
      exact .self fun d found => letter_not_blank (clear.ascii d (by simp_all)) (by simp_all)
    | cons d more => exact shortened.behind [c] (List.cons_ne_nil d more)
  | @escaped escape name own more ih =>
    obtain ⟨short, rest, shortened⟩ := ih clear.tail.right
    rw [List.append_nil] at own
    cases short with
    | nil =>
      obtain rfl : [] = name := shortened.same.resolve_right List.not_mem_nil
      have first : ∀ c, escape.head? = some c → isBlank c = false := by
        intro c found
        obtain ⟨more, rfl⟩ := List.head?_eq_some_iff.mp found
        exact (List.isChain_cons_cons.mp clear.escapes).1 rfl
      obtain ⟨short, kept, shortened⟩ := own.shorten first
      refine ⟨'\\' :: (short ++ []), .escaped kept rest, ?_⟩
      rwa [List.append_nil, List.append_nil]
    | cons d more =>
      have own' := own.truncate shortened.shorter
      exact ⟨_, .escaped (by rwa [List.append_nil]) rest, shortened.behind ('\\' :: escape) (List.cons_ne_nil d more)⟩

end Shortened

section Identifiers

variable {s rest less name : Text} {c : Char}

def begins (c : Char) : Bool := c.isAlpha || c == '_' || c == '\\' || !isAscii c

/-- Whether a name is one that may stand without a mark in front. -/
def leads : Text → Bool
  | '-' :: '-' :: _ => true
  | '-' :: c :: _ => begins c
  | c :: _ => begins c
  | [] => false

/-- An identifier that stands before the rest of a text. -/
structure Word (rest name : Text) : Prop where
  own : Name rest name
  leading : leads name = true

theorem Word.filled (word : Word rest name) : name ≠ [] := by
  rintro rfl
  cases word.leading

theorem begins_not_hyphen (own : begins c = true) : c ≠ '-' := by
  rintro rfl
  exact absurd own (by decide)

theorem leads_of_begins (own : begins c = true) (rest : Text) : leads (c :: rest) = true := by
  have other := begins_not_hyphen own
  unfold leads
  split
  next same => exact absurd (List.cons.inj same).1 other
  next same => exact absurd (List.cons.inj same).1 other
  next same => exact (List.cons.inj same).1 ▸ own
  next same => cases same

theorem leads_of_hyphen (own : begins c = true) (rest : Text) : leads ('-' :: c :: rest) = true := by
  unfold leads
  split
  next => rfl
  next same => exact (List.cons.inj (List.cons.inj same).2).1 ▸ own
  next other same =>
    obtain ⟨rfl, rfl⟩ := List.cons.inj same
    exact absurd rfl (other c rest rfl)
  next same => cases same

theorem wordLength_begins (own : begins c = true) (rest : Text) :
    wordLength (c :: rest) = nameLength (c :: rest) := if_pos own

theorem identifierLength_begins (own : begins c = true) (rest : Text) :
    identifierLength (c :: rest) = nameLength (c :: rest) := by
  have other := begins_not_hyphen own
  unfold identifierLength
  split
  next same => exact absurd (List.cons.inj same).1 other
  next same => exact absurd (List.cons.inj same).1 other
  next => exact wordLength_begins own rest

/-- How an identifier begins. -/
theorem leads_cases (leading : leads name = true) :
    (∃ more, name = '-' :: '-' :: more) ∨ (∃ c more, begins c = true ∧ name = '-' :: c :: more) ∨
      ∃ c more, begins c = true ∧ name = c :: more := by
  unfold leads at leading
  split at leading
  next more => exact Or.inl ⟨more, rfl⟩
  next c more _ => exact Or.inr (Or.inl ⟨c, more, leading, rfl⟩)
  next c more _ _ => exact Or.inr (Or.inr ⟨c, more, leading, rfl⟩)
  next => cases leading

theorem leads_append (leading : leads name = true) (after : Text) : leads (name ++ after) = true := by
  rcases leads_cases leading with ⟨more, rfl⟩ | ⟨c, more, first, rfl⟩ | ⟨c, more, first, rfl⟩
  · rfl
  · exact leads_of_hyphen first _
  · exact leads_of_begins first _

theorem Word.length (word : Word rest name) : identifierLength (name ++ rest) = name.length := by
  have length := word.own.length
  have hyphen : isLetter '-' = true := by decide
  rcases leads_cases word.leading with ⟨more, rfl⟩ | ⟨c, more, first, rfl⟩ | ⟨c, more, first, rfl⟩
  · simp only [List.cons_append, nameLength_letter hyphen, List.length_cons] at length ⊢
    rw [identifierLength]
    omega
  · simp only [List.cons_append, nameLength_letter hyphen, List.length_cons] at length ⊢
    have size : wordLength (c :: (more ++ rest)) = more.length + 1 := (wordLength_begins first _).trans (by omega)
    have other := begins_not_hyphen first
    simp [identifierLength, other, size]
  · rw [List.cons_append] at length ⊢
    rw [identifierLength_begins first, length]

private theorem begins_of_wordLength {extra : Nat} (length : wordLength s = extra + 1) :
    ∃ c rest, s = c :: rest ∧ begins c = true ∧ nameLength s = extra + 1 := by
  cases s with
  | nil => cases length
  | cons c rest =>
    by_cases first : begins c = true
    · exact ⟨c, rest, rfl, first, (wordLength_begins first rest).symm.trans length⟩
    · have none : wordLength (c :: rest) = 0 := if_neg first
      rw [none] at length
      cases length

/-- What is taken for the identifier at the front of a text is one. -/
theorem word_of_length (filled : identifierLength s ≠ 0) :
    Word (s.drop (identifierLength s)) (s.take (identifierLength s)) := by
  have hyphen : isLetter '-' = true := by decide
  obtain ⟨extra, length⟩ := Nat.exists_eq_succ_of_ne_zero filled
  rw [length]
  have whole : ∀ s, nameLength s = extra + 1 → leads (s.take (extra + 1)) = true →
      Word (s.drop (extra + 1)) (s.take (extra + 1)) := by
    intro s size leading
    have own := name_of_length s
    rw [size] at own
    exact ⟨own, leading⟩
  unfold identifierLength at length
  split at length
  next rest =>
    apply whole
    · rw [nameLength_letter hyphen, nameLength_letter hyphen]
      omega
    · obtain ⟨more, rfl⟩ : ∃ more, extra = more + 1 := ⟨nameLength rest, by omega⟩
      rfl
  next rest other =>
    split at length
    next => cases length
    next inner size =>
      obtain rfl : inner + 1 = extra := by omega
      obtain ⟨c, more, rfl, first, size'⟩ := begins_of_wordLength size
      apply whole
      · rw [nameLength_letter hyphen, size']
      · exact leads_of_hyphen first _
  next =>
    obtain ⟨c, more, rfl, first, size⟩ := begins_of_wordLength length
    exact whole _ size (leads_of_begins first _)

theorem Word.truncate (word : Word rest name) (shorter : less <+: rest) : Word less name :=
  ⟨word.own.truncate shorter, word.leading⟩

/-- Less of a name begins like it if an escape is left. -/
theorem leads_shortened {short : Text} (leading : leads name = true) (shorter : short <+: name)
    (escape : '\\' ∈ short) :
    leads short = true := by
  obtain ⟨after, rfl⟩ := shorter
  cases short with
  | nil => cases escape
  | cons c more =>
    rcases leads_cases leading with ⟨rest, same⟩ | ⟨d, rest, first, same⟩ | ⟨d, rest, first, same⟩
    all_goals obtain ⟨rfl, later⟩ := List.cons.inj same
    · cases more with
      | nil => exact absurd (List.mem_singleton.mp escape) (by decide)
      | cons d more =>
        obtain ⟨rfl, -⟩ := List.cons.inj later
        rfl
    · cases more with
      | nil => exact absurd (List.mem_singleton.mp escape) (by decide)
      | cons d more =>
        obtain ⟨rfl, -⟩ := List.cons.inj later
        exact leads_of_hyphen first more
    · exact leads_of_begins first more

theorem Word.shorten (word : Word [] name) (clear : Clear name) : ∃ short, Word [] short ∧ Shortened name short := by
  obtain ⟨short, own, shortened⟩ := word.own.shorten clear
  refine ⟨short, ⟨own, ?_⟩, shortened⟩
  rcases shortened.same with rfl | escape
  · exact word.leading
  · exact leads_shortened word.leading shortened.shorter escape

end Identifiers

end CascadeLens.Proofs.SelectorEscapes
