import CascadeLens.Proofs.SelectorCuts
import CascadeLens.Selector.Escape
import CascadeLens.Selector.Weight
import Mathlib.Data.Nat.Digits.Defs

/-! Names as they are escaped in selectors. What is written behind a dot is read as one name, which is that of
a class unless it begins with a hyphen that should have been escaped itself. -/

namespace CascadeLens.Proofs.EscapedNames
open Text Selector TextShape NestReading SelectorNames SelectorEscapes SelectorLexing SelectorCuts

def Solidly (s : Text) : Prop := ∀ c ∈ s, isBlank c = false

instance (s : Text) : Decidable (Solidly s) := inferInstanceAs (Decidable (∀ c ∈ s, isBlank c = false))

section Characters

variable {c : Char}

theorem letter_of_plain (plain : isPlain c = true) : isLetter c = true := by
  by_cases ascii : isAscii c = true
  · exact @every_ascii (fun c => isPlain c = true → isLetter c = true) (by decide) c ascii plain
  · simp [isLetter, ascii]

theorem plain_of_hex (hex : isHexDigit c = true) : isPlain c = true := by
  by_cases ascii : isAscii c = true
  · exact @every_ascii (fun c => isHexDigit c = true → isPlain c = true) (by decide) c ascii hex
  · have far : 128 ≤ c.toNat := by simpa [isAscii] using ascii
    simp [isPlain, far]

theorem not_hex_of_marked (marked : isPlain c = false) : isHexDigit c = false := by
  by_contra hex
  rw [plain_of_hex (by simpa using hex)] at marked
  cases marked

theorem plain_of_digit (digit : c.isDigit = true) : isPlain c = true := by
  simp [isPlain, Char.isAlphanum, digit]

theorem begins_of_plain (plain : isPlain c = true) (other : c ≠ '-') (letter : c.isDigit = false) : begins c = true := by
  by_cases far : 128 ≤ c.toNat
  · simp [begins, isAscii, far]
  · simp only [isPlain, Char.isAlphanum, letter, far, Bool.or_false, Bool.or_eq_true, beq_iff_eq, decide_false, other,
      or_false] at plain
    rcases plain with alpha | rfl
    · simp [begins, alpha]
    · rfl

theorem digit_of_isDigit (wide : isDigit c = false) : c.isDigit = false := by
  by_cases near : c.toNat < 128
  · simpa [isDigit, near] using wide
  · by_contra digit
    have bound : c.toNat ≤ 57 := by
      have range : 48 ≤ c.val.toNat ∧ c.val.toNat ≤ 57 := by
        simpa [Char.isDigit, UInt32.le_iff_toNat_le] using digit
      exact range.2
    omega

theorem escapeChar_solid (solid : isBlank c = false) : Solidly (escapeChar c) := by
  intro d member
  unfold escapeChar at member
  split at member
  · rw [List.mem_singleton.mp member]
    exact solid
  · rcases List.mem_cons.mp member with rfl | own
    · decide
    · rw [List.mem_singleton.mp own]
      exact solid

end Characters

section Digits

theorem hex_digit {value : Nat} : ∀ c ∈ hexText value, isHexDigit c = true := by
  induction value using Nat.strong_induction_on with
  | _ value ih =>
    have small : ∀ digit < 16, isHexDigit (Nat.digitChar digit) = true := by decide
    rw [hexText, Nat.toDigits_eq_if (by decide)]
    split
    next less => simpa using small value less
    next more =>
      refine List.forall_mem_append.mpr ⟨ih (value / 16) (by omega), ?_⟩
      simpa using small (value % 16) (by omega)

theorem not_mem_hexText {c : Char} (other : isHexDigit c = false) (value : Nat) : c ∉ hexText value := by
  intro member
  rw [hex_digit c member] at other
  cases other

theorem hexText_code (c : Char) : Code (hexText c.toNat) where
  filled := Nat.toDigits_ne_nil
  hex := hex_digit
  short := by
    have bound : c.toNat < 16 ^ 6 := by
      have valid := c.valid
      rcases valid with low | high
      · exact Nat.lt_trans low (by decide)
      · exact Nat.lt_trans high.2 (by decide)
    exact (Nat.length_toDigits_le_iff (by decide) (by decide)).mpr bound

theorem hexText_solid (value : Nat) : Solidly (hexText value) :=
  fun c member => not_blank_of_isNameChar (letter_of_hex (hex_digit c member))

end Digits

section Names

variable {c : Char} {rest name : Text}

theorem escape_digit (digit : isDigit c = true) (rest : Text) :
    escape (c :: rest) = '\\' :: ((hexText c.toNat ++ [' ']) ++ rest.flatMap escapeChar) := by
  simp [escape, digit]

theorem escape_other (other : isDigit c = false) (rest : Text) : escape (c :: rest) = (c :: rest).flatMap escapeChar := by
  simp [escape, other]

theorem flatMap_solid (solid : Solidly name) : Solidly (name.flatMap escapeChar) := by
  intro c member
  obtain ⟨d, own, inside⟩ := List.mem_flatMap.mp member
  exact escapeChar_solid (solid d own) c inside

theorem name_flatMap (solid : Solidly name) : Name [] (name.flatMap escapeChar) := by
  induction name with
  | nil => exact .ended (by simp [nameLength])
  | cons c rest ih =>
    obtain ⟨own, others⟩ := List.forall_mem_cons.mp solid
    have more := ih others
    rw [List.flatMap_cons, escapeChar]
    split
    next plain => exact .letter (letter_of_plain plain) more
    next marked =>
      have line : c ≠ '\n' := by
        rintro rfl
        exact absurd own (by decide)
      have other : isHexDigit c = false := not_hex_of_marked (by simpa using marked)
      exact .escaped (.char other line) more

/-- An escaped name is all of the name that stands there. -/
theorem name_escape (solid : Solidly name) : Name [] (escape name) := by
  cases name with
  | nil => exact .ended (by simp [nameLength])
  | cons c rest =>
    cases digit : isDigit c with
    | false =>
      rw [escape_other digit]
      exact name_flatMap solid
    | true =>
      rw [escape_digit digit]
      have more := name_flatMap (List.forall_mem_cons.mp solid).2
      exact .escaped (.spaced (hexText_code c) (by decide)) more

theorem escape_filled (filled : name ≠ []) : escape name ≠ [] := by
  obtain ⟨c, rest, rfl⟩ := List.exists_cons_of_ne_nil filled
  cases digit : isDigit c with
  | true => simp [escape_digit digit]
  | false =>
    rw [escape_other digit, List.flatMap_cons, escapeChar]
    split <;> simp

/-- A hyphen in front that is not read as a number sign or as nothing at all. -/
def Led (name : Text) : Prop := ∀ rest, name = '-' :: rest → ∃ c more, rest = c :: more ∧ c.isDigit = false

theorem leads_dash (rest : Text) :
    leads ('-' :: rest.flatMap escapeChar) = true ↔ ∃ c more, rest = c :: more ∧ c.isDigit = false := by
  cases rest with
  | nil => simp [leads, begins, isAscii]
  | cons c more =>
    have shown : (∃ d others, c :: more = d :: others ∧ d.isDigit = false) ↔ c.isDigit = false := by simp
    rw [shown, List.flatMap_cons, escapeChar]
    cases plain : isPlain c with
    | false =>
      have other : c.isDigit = false := by
        by_contra digit
        rw [plain_of_digit (by simpa using digit)] at plain
        cases plain
      simpa [other] using leads_of_hyphen (by decide : begins '\\' = true) (c :: more.flatMap escapeChar)
    | true =>
      by_cases dash : c = '-'
      · subst dash
        exact ⟨fun _ => rfl, fun _ => rfl⟩
      cases digit : c.isDigit with
      | false => simpa using leads_of_hyphen (begins_of_plain plain dash digit) (more.flatMap escapeChar)
      | true =>
        have silent : begins c = false := by
          have ascii := isAscii_of_isAlphanum (by simp [Char.isAlphanum, digit] : c.isAlphanum = true)
          exact @every_ascii (fun c => c.isDigit = true → begins c = false) (by decide) c ascii digit
        simp [leads, silent]

theorem leads_escape_iff (filled : name ≠ []) : leads (escape name) = true ↔ Led name := by
  obtain ⟨c, rest, rfl⟩ := List.exists_cons_of_ne_nil filled
  by_cases dash : c = '-'
  · subst dash
    have same : escape ('-' :: rest) = '-' :: rest.flatMap escapeChar := escape_other (by decide) rest
    rw [same, leads_dash]
    exact ⟨fun led more own => (List.cons.inj own).2 ▸ led, fun led => led rest rfl⟩
  · have led : Led (c :: rest) := fun more own => absurd (List.cons.inj own).1 dash
    refine iff_of_true ?_ led
    cases digit : isDigit c with
    | true =>
      rw [escape_digit digit]
      exact leads_of_begins (by decide) _
    | false =>
      rw [escape_other digit, List.flatMap_cons, escapeChar]
      split
      next plain => exact leads_of_begins (begins_of_plain plain dash (digit_of_isDigit digit)) _
      next => exact leads_of_begins (by decide) _

end Names

section Weights

variable {s : Text}

theorem identifierLength_misled (misled : leads s = false) : identifierLength s = 0 := by
  by_contra filled
  have leading := leads_append (word_of_length filled).leading (s.drop (identifierLength s))
  rw [List.take_append_drop, misled] at leading
  cases leading

theorem name_solid {name : Text} (own : Name [] name) (first : ∀ c, name.head? = some c → isBlank c = false) :
    gapLength name = 0 := by
  refine gapLength_solid fun c found => ⟨first c found, ?_⟩
  rintro rfl
  cases own with
  | ended => cases found
  | letter letter =>
    obtain rfl := Option.some.inj found
    exact absurd letter (by decide)
  | escaped => cases found

/-- A dot with a name behind it counts as a class, and without one it is no selector. -/
theorem specificity_dotted {name : Text} (own : Name [] name) (filled : name ≠ [])
    (first : ∀ c, name.head? = some c → isBlank c = false) :
    Selector.specificity ('.' :: name) = if leads name then .oneClass else .zero := by
  have gap := name_solid own first
  have read : parse? ('.' :: name) = (tokens? ('.' :: name)).bind ofTokens? := by
    rw [parse?, if_neg (by simp [blank, show isBlank '.' = false by decide])]
  rw [specificity, read]
  cases leading : leads name with
  | true =>
    have word : Word [] name := ⟨own, leading⟩
    have length := word.length
    have token := @token_dot [] name [] filled (by simpa using gap) length
    simp only [List.nil_append, List.append_nil] at token
    rw [tokens_step (by decide) token, List.drop_length, tokens?]
    rfl
  | false =>
    have none : token? '.' name = none := by
      rw [token?.eq_def, if_neg (by decide), if_pos (by decide)]
      simp [gap, identifierLength_misled leading]
    have start : gapLength ('.' :: name) = 0 := gapLength_solid fun d found => Option.some.inj found ▸ by decide
    rw [tokens?]
    simp only [start, none]
    rfl

/-- A dotted name is one branch of a selector list. -/
theorem branches_dotted {name : Text} (own : Name [] name) (filled : name ≠ [])
    (last : ∀ c, name.getLast? = some c → isBlank c = false) : branches ('.' :: name) = ['.' :: name] := by
  have dot : Neutral ['.'] := neutral_ordinary (by decide)
  have whole : Whole (· == ',') ('.' :: name) := by
    refine ⟨by simp, ⟨fun c found => Option.some.inj found ▸ by decide, fun c found => last c ?_⟩, ?_⟩
    · rwa [List.getLast?_cons_of_ne_nil filled] at found
    · exact ((dot.append (neutral_name own)) 0).2
  exact whole.split

end Weights

end CascadeLens.Proofs.EscapedNames
