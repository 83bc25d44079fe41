import CascadeLens.Proofs.TagStretches

/-! Reading markup piece by piece. The place a reader stands at, and the element whose raw content it is in, are all that
the markup behind depends on. What is read before the end of some lines does not depend on the lines behind them. -/

namespace CascadeLens.Proofs.MarkupReading
open Text Page MarkupStretches TagStretches

section References

variable {s a rest : Text} {markup : List Markup} {raw : Option Text} {length : Nat}

/-- The digits behind a number sign, their length with what marks them, and the number. -/
def digitsOf (rest : Text) : Text × Nat × Nat :=
  match rest with
  | 'x' :: more | 'X' :: more =>
    let digits := more.takeWhile isHexDigit
    (digits, digits.length + 1, hexNumber digits)
  | _ =>
    let digits := rest.takeWhile Char.isDigit
    (digits, digits.length, decimalNumber digits)

/-- What a reader does at a numbered reference with such digits. -/
def numberMove (read : Text × Nat × Nat) (rest : Text) : Move :=
  let behind := rest.drop read.2.1
  if read.1.isEmpty || behind.isEmpty || behind.head?.any isHexDigit then
    if rest.contains ';' then .take [.text ['&', '#']] none 1 true else .wait
  else .take [.text [numberedInText read.2.2]] none (1 + read.2.1 + semicolon behind) false

theorem textReference_number (rest : Text) : textReference ('#' :: rest) = numberMove (digitsOf rest) rest := rfl

theorem textReference_letter {c : Char} (letter : c.isAlpha = true) (rest : Text) : textReference (c :: rest) =
    let name := rest.takeWhile fun c => c.isAlphanum || c == '-' || c == '.'
    if name.length == rest.length then .wait
    else .take [.text ((entity? (c :: name)).getD ('&' :: c :: name))] none
      (name.length + semicolon (rest.drop name.length) + 1) false := by
  have sign : c ≠ '#' := by
    rintro rfl
    cases letter
  rw [textReference.eq_def]
  simp [letter]

theorem textReference_other {c : Char} (sign : c ≠ '#') (other : ¬c.isAlpha = true) (rest : Text) :
    textReference (c :: rest) = .take [.text ['&']] none 0 false := by
  rw [textReference.eq_def]
  simp [other]

theorem digitsOf_hex {c : Char} (marked : c = 'x' ∨ c = 'X') (more : Text) : digitsOf (c :: more) =
    (more.takeWhile isHexDigit, (more.takeWhile isHexDigit).length + 1, hexNumber (more.takeWhile isHexDigit)) := by
  rcases marked with rfl | rfl <;> rfl

theorem digitsOf_decimal {s : Text} (unmarked : ∀ c, s.head? = some c → ¬(c = 'x' ∨ c = 'X')) : digitsOf s =
    (s.takeWhile Char.isDigit, (s.takeWhile Char.isDigit).length, decimalNumber (s.takeWhile Char.isDigit)) := by
  unfold digitsOf
  split
  · exact absurd (.inl rfl) (unmarked _ rfl)
  · exact absurd (.inr rfl) (unmarked _ rfl)
  · rfl

theorem digitsOf_front (s a : Text) : digitsOf (s ++ '\n' :: a) = digitsOf s := by
  cases s with
  | nil => rfl
  | cons c more =>
    by_cases marked : c = 'x' ∨ c = 'X'
    · rw [List.cons_append, digitsOf_hex marked, digitsOf_hex marked, run_stopped rfl]
    · have first : ∀ t d, (c :: t : Text).head? = some d → ¬(d = 'x' ∨ d = 'X') := by
        rintro t d ⟨⟩
        exact marked
      rw [digitsOf_decimal (first more), List.cons_append, digitsOf_decimal (first _), ← List.cons_append, run_stopped rfl]

theorem semicolon_outside {p : Char → Bool} (outside : p ';' = false) (s : Text) : ';' ∉ s.takeWhile p := by
  intro member
  have passed := List.all_eq_true.mp List.all_takeWhile ';' member
  rw [outside] at passed
  cases passed

theorem digitsOf_within (s : Text) : (digitsOf s).2.1 ≤ s.length ∧ ';' ∉ s.take (digitsOf s).2.1 := by
  have run : ∀ (p : Char → Bool) (s : Text), (s.takeWhile p).length ≤ s.length ∧ s.take (s.takeWhile p).length = s.takeWhile p :=
    fun p s => ⟨(List.takeWhile_sublist p).length_le, (List.prefix_iff_eq_take.mp (List.takeWhile_prefix p)).symm⟩
  by_cases marked : ∃ c more, s = c :: more ∧ (c = 'x' ∨ c = 'X')
  · obtain ⟨c, more, rfl, marked⟩ := marked
    obtain ⟨bound, taken⟩ := run isHexDigit more
    rw [digitsOf_hex marked]
    refine ⟨Nat.succ_le_succ bound, ?_⟩
    rw [List.take_succ_cons, taken, List.mem_cons]
    rintro (rfl | member)
    · exact absurd marked (by decide)
    · exact semicolon_outside rfl more member
  · obtain ⟨bound, taken⟩ := run Char.isDigit s
    rw [digitsOf_decimal]
    · refine ⟨bound, ?_⟩
      dsimp only
      rw [taken]
      exact semicolon_outside rfl s
    · intro c first same
      obtain ⟨more, rfl⟩ := List.head?_eq_some_iff.mp first
      exact marked ⟨c, more, rfl, same⟩

theorem semicolon_front (filled : s ≠ []) (t : Text) : semicolon (s ++ t) = semicolon s := by
  obtain ⟨c, more, rfl⟩ := List.exists_cons_of_ne_nil filled
  by_cases ended : c = ';'
  · subst ended
    rfl
  · simp [semicolon, ended]

theorem numberMove_within (taken : textReference ('#' :: (s ++ '\n' :: a)) = .take markup raw length false) :
    textReference ('#' :: s) = .take markup raw length false ∨ textReference ('#' :: s) = .wait := by
  obtain ⟨bound, quiet⟩ := digitsOf_within s
  rw [textReference_number] at taken ⊢
  rw [digitsOf_front] at taken
  unfold numberMove at taken ⊢
  dsimp only at taken ⊢
  rw [drop_front bound] at taken
  by_cases whole : s.drop (digitsOf s).2.1 = []
  · right
    have all : s.take (digitsOf s).2.1 = s := List.take_of_length_le (List.drop_eq_nil_iff.mp whole)
    rw [all] at quiet
    simp [whole, quiet]
  · left
    rw [head_front whole, semicolon_front whole] at taken
    have open_end : (s.drop (digitsOf s).2.1 ++ '\n' :: a).isEmpty = (s.drop (digitsOf s).2.1).isEmpty := by
      obtain ⟨c, more, left⟩ := List.exists_cons_of_ne_nil whole
      rw [left]
      rfl
    rw [open_end] at taken
    split at taken
    · split at taken <;> cases taken
    next number =>
      rw [if_neg number]
      exact taken

/-- A reference is read the same without the lines behind, or waits for them to come. -/
theorem textReference_within (taken : textReference (s ++ '\n' :: a) = .take markup raw length false) :
    textReference s = .take markup raw length false ∨ textReference s = .wait := by
  cases s with
  | nil => exact .inr rfl
  | cons c rest =>
    rw [List.cons_append] at taken
    by_cases sign : c = '#'
    · subst sign
      exact numberMove_within taken
    by_cases letter : c.isAlpha = true
    · rw [textReference_letter letter] at taken ⊢
      dsimp only at taken ⊢
      have bound : (rest.takeWhile fun c => c.isAlphanum || c == '-' || c == '.').length ≤ rest.length :=
        (List.takeWhile_sublist _).length_le
      rw [run_stopped rfl, drop_front bound, if_neg] at taken
      · obtain ⟨rfl, rfl, rfl, -⟩ := Move.take.inj taken
        by_cases whole : (rest.takeWhile fun c => c.isAlphanum || c == '-' || c == '.').length = rest.length
        · right
          rw [if_pos (beq_iff_eq.mpr whole)]
        · left
          rw [if_neg (by rwa [beq_iff_eq]), semicolon_front]
          intro nothing
          have left := List.drop_eq_nil_iff.mp nothing
          omega
      · rw [beq_iff_eq, List.length_append, List.length_cons]
        omega
    · rw [textReference_other sign letter] at taken ⊢
      exact .inl taken

end References

section Constructs

variable {s a rest more : Text} {markup : List Markup} {length : Nat}

/-- A construct behind some characters of its own. -/
def Construct.behind (construct : Construct) (taken : Nat) : Construct :=
  match construct with
  | .found markup length => .found markup (length + taken)
  | other => other

theorem Construct.behind_found {construct : Construct} {taken : Nat} : Construct.behind construct taken = .found markup length ↔
    ∃ own, construct = .found markup own ∧ length = own + taken := by
  cases construct <;> simp [Construct.behind, eq_comm]

theorem construct_end (rest : Text) : construct ('/' :: rest) = Construct.behind (endTag rest) 1 := by
  cases ended : endTag rest <;> simp only [construct, ended, Construct.behind]

theorem construct_section (rest : Text) : construct ('!' :: '[' :: rest) = Construct.behind (markedSection rest) 2 := by
  cases ended : markedSection rest <;> simp only [construct, ended, Construct.behind]

theorem construct_comment : construct ('!' :: '-' :: '-' :: rest) = .found markup length ↔
    ∃ own, commentEnd? rest = some own ∧ markup = [] ∧ length = own + 3 := by
  cases ended : commentEnd? rest <;> simp [construct, ended, eq_comm]

theorem construct_declaration (no_comment : ∀ more, rest ≠ '-' :: '-' :: more) (no_section : ∀ more, rest ≠ '[' :: more) :
    construct ('!' :: rest) = passedOver ('!' :: rest) := by
  rw [construct.eq_def]
  split
  case h_7 other same => exact absurd (List.cons.inj same).1.symm other
  all_goals simp_all

theorem construct_other {c : Char} (slash : c ≠ '/') (mark : c ≠ '!') (question : c ≠ '?') (rest : Text) :
    construct (c :: rest) = if c.isAlpha then startTag (c :: rest) else .found [.text ['<']] 0 := by
  rw [construct.eq_def]
  simp [mark]

/-- Comments, marked sections and what else begins with an exclamation mark. The line end is no hyphen, so no comment begins
behind it. -/
theorem marked_within (found : construct ('!' :: (rest ++ '\n' :: a)) = .found markup length) (within : length ≤ rest.length + 1) :
    construct ('!' :: rest) = .found markup length := by
  by_cases comment : ∃ more, rest = '-' :: '-' :: more
  · obtain ⟨more, rfl⟩ := comment
    simp only [List.cons_append, List.length_cons] at found within
    rw [construct_comment] at found ⊢
    obtain ⟨own, ended, rfl, rfl⟩ := found
    exact ⟨own, commentEnd_within ended (by omega), rfl, rfl⟩
  by_cases bracket : ∃ more, rest = '[' :: more
  · obtain ⟨more, rfl⟩ := bracket
    simp only [List.cons_append, List.length_cons] at found within
    rw [construct_section, Construct.behind_found] at found ⊢
    obtain ⟨own, ended, rfl⟩ := found
    exact ⟨own, markedSection_within ended (by omega), rfl⟩
  rw [construct_declaration] at found ⊢
  · exact passedOver_within (s := '!' :: rest) found within
  · exact fun more same => comment ⟨more, same⟩
  · exact fun more same => bracket ⟨more, same⟩
  · intro more same
    match rest with
    | [] => cases (List.cons.inj same).1
    | [d] => cases (List.cons.inj (List.cons.inj same).2).1
    | d :: e :: rest =>
      simp only [List.cons_append, List.cons.injEq] at same
      exact comment ⟨rest, by rw [same.1, same.2.1]⟩
  · intro more same
    cases rest with
    | nil => cases (List.cons.inj same).1
    | cons d rest => exact bracket ⟨rest, by rw [(List.cons.inj same).1]⟩

/-- A construct that is completed in the line is the same without the lines behind. -/
theorem construct_within (filled : s ≠ []) (found : construct (s ++ '\n' :: a) = .found markup length)
    (within : length ≤ s.length) : construct s = .found markup length := by
  obtain ⟨c, rest, rfl⟩ := List.exists_cons_of_ne_nil filled
  rw [List.cons_append] at found
  rw [List.length_cons] at within
  by_cases slash : c = '/'
  · subst slash
    rw [construct_end, Construct.behind_found] at found ⊢
    obtain ⟨own, ended, rfl⟩ := found
    exact ⟨own, endTag_within ended (by omega), rfl⟩
  by_cases question : c = '?'
  · subst question
    exact passedOver_within (s := '?' :: rest) found within
  by_cases mark : c = '!'
  · subst mark
    exact marked_within found within
  rw [construct_other slash mark question] at found ⊢
  split at found
  next letter =>
    rw [if_pos letter]
    exact startTag_within (s := c :: rest) found within
  next other =>
    rw [if_neg other]
    exact found

end Constructs

end CascadeLens.Proofs.MarkupReading
