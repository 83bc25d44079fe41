import CascadeLens.Proofs.EscapedPrefixes

/-! Names read back from their spelling. The escapes are those that belong to a name where selectors are read. What is
read behind an escaped name does not depend on it, so names that are spelled alike are the same. -/

namespace CascadeLens.Proofs.SpelledNames
open Text Selector TextShape SelectorEscapes EscapedNames EscapedPrefixes

/-- The character that an escape stands for, given what belongs to it behind its backslash: the one with the number that
its hexadecimal digits give, or else the one that is there. -/
def meant? (own : Text) : Option Char :=
  let digits := own.takeWhile isHexDigit
  if digits.isEmpty then own.head?
  else if (hexNumber digits).isValidChar then some (Char.ofNat (hexNumber digits))
  else none

/-- What a spelling stands for. A backslash that begins no escape stands for nothing. -/
def meaning? : Text → Option Text
  | [] => some []
  | c :: rest =>
    if c == '\\' then
      match escapeLength rest with
      | 0 => none
      | extra + 1 =>
        (meant? (rest.take (extra + 1))).bind fun d => (meaning? (rest.drop (extra + 1))).map (d :: ·)
    else (meaning? rest).map (c :: ·)
termination_by s => s.length
decreasing_by all_goals simp only [List.length_cons, List.length_drop]; omega

section Steps

variable {c d : Char} {escape name rest : Text}

theorem meaning_letter (other : c ≠ '\\') (rest : Text) : meaning? (c :: rest) = (meaning? rest).map (c :: ·) := by
  rw [meaning?, if_neg (by simpa using other)]

theorem meaning_escape (own : Escape rest escape) (meant : meant? escape = some d) :
    meaning? ('\\' :: (escape ++ rest)) = (meaning? rest).map (d :: ·) := by
  obtain ⟨extra, size⟩ := Nat.exists_eq_succ_of_ne_zero (mt List.length_eq_zero_iff.mp own.filled)
  have length : escapeLength (escape ++ rest) = extra + 1 := own.length.trans size
  rw [meaning?, if_pos (by decide), length]
  dsimp only
  rw [← Nat.succ_eq_add_one, ← size, List.take_left, List.drop_left, meant, Option.bind_some]

theorem meant_char (other : isHexDigit c = false) : meant? [c] = some c := by
  simp [meant?, other]

theorem meant_code (c : Char) {space : Char} (white : isBlank space = true) :
    meant? (hexText c.toNat ++ [space]) = some c := by
  have code := hexText_code c
  have digits : (hexText c.toNat ++ [space]).takeWhile isHexDigit = hexText c.toNat := by
    rw [List.takeWhile_append_of_pos code.hex, List.takeWhile_cons, not_hex_of_blank white, if_neg Bool.false_ne_true,
      List.append_nil]
  have valid : c.toNat.isValidChar := c.valid
  simp only [meant?, digits, hexNumber_hexText, List.isEmpty_iff, code.filled, if_false, valid, if_true, Char.ofNat_toNat]

end Steps

section Names

variable {c : Char} {name rest : Text}

theorem escapeChar_meaning (line : c ≠ '\n') (rest : Text) :
    meaning? (escapeChar c ++ rest) = (meaning? rest).map (c :: ·) := by
  rcases escapeChar_spec c with ⟨plain, own⟩ | ⟨marked, own⟩
  · have other : c ≠ '\\' := by
      rintro rfl
      cases plain
    rw [own]
    exact meaning_letter other rest
  · have other := not_hex_of_marked marked
    rw [own]
    exact meaning_escape (.char other line) (meant_char other)

theorem code_meaning (c : Char) (rest : Text) :
    meaning? ('\\' :: (hexText c.toNat ++ [' '] ++ rest)) = (meaning? rest).map (c :: ·) := by
  have white : isBlank ' ' = true := by decide
  exact meaning_escape (.spaced (hexText_code c) white) (meant_code c white)

theorem flatMap_meaning (unbroken : '\n' ∉ name) (rest : Text) :
    meaning? (name.flatMap escapeChar ++ rest) = (meaning? rest).map (name ++ ·) := by
  induction name with
  | nil => simp
  | cons c name ih =>
    obtain ⟨line, others⟩ := not_or.mp (mt List.mem_cons.mpr unbroken)
    rw [List.flatMap_cons, List.append_assoc, escapeChar_meaning (Ne.symm line), ih others, Option.map_map]
    rfl

/-- An escaped name is read by itself, whatever follows it. -/
theorem escape_meaning (unbroken : '\n' ∉ name) (rest : Text) :
    meaning? (escape name ++ rest) = (meaning? rest).map (name ++ ·) := by
  cases name with
  | nil => simp [escape]
  | cons c more =>
    cases digit : isDigit c with
    | false =>
      rw [escape_other digit]
      exact flatMap_meaning unbroken rest
    | true =>
      have others := (not_or.mp (mt List.mem_cons.mpr unbroken)).2
      rw [escape_digit digit, List.cons_append, List.append_assoc, code_meaning, flatMap_meaning others, Option.map_map]
      rfl

theorem escape_append (other : isDigit c = false) (name rest : Text) :
    escape (name ++ c :: rest) = escape name ++ (c :: rest).flatMap escapeChar := by
  cases name with
  | nil => exact escape_other other rest
  | cons d more => simp [escape, List.append_assoc]

/-- Only a line feed cannot be escaped. -/
theorem meaning_escape_iff : meaning? (escape name) = some name ↔ '\n' ∉ name := by
  constructor
  · intro read broken
    obtain ⟨before, after, rfl, unbroken⟩ := List.eq_append_cons_of_mem broken
    have marked : escapeChar '\n' = ['\\', '\n'] := by decide
    have nothing : meaning? ('\\' :: '\n' :: after.flatMap escapeChar) = none := by
      rw [meaning?, if_pos (by decide), escapeLength_eq_zero.mpr (by simp)]
    rw [escape_append (by decide), escape_meaning unbroken, List.flatMap_cons, marked] at read
    simp [nothing] at read
  · intro unbroken
    have read := escape_meaning unbroken []
    rwa [List.append_nil, meaning?, Option.map_some, List.append_nil] at read

end Names

/-- A name without blanks stands as one name where it is escaped, and what it reads as there is the name again. No two
such names are escaped alike. -/
theorem escaped_name_reads_back {name : Text} (solid : Solidly name) :
    nameLength (escape name) = (escape name).length ∧ meaning? (escape name) = some name ∧
      ∀ other, Solidly other → escape other = escape name → other = name := by
  have unbroken {name : Text} (solid : Solidly name) : '\n' ∉ name := by
    intro member
    exact absurd (solid '\n' member) (by decide)
  have length := (name_escape solid).length
  rw [List.append_nil] at length
  have read := meaning_escape_iff.mpr (unbroken solid)
  refine ⟨length, read, ?_⟩
  intro other solid' same
  have read' := meaning_escape_iff.mpr (unbroken solid')
  rw [same, read] at read'
  exact (Option.some.inj read').symm

/-- A digit beyond ASCII in front of a letter that is a hexadecimal digit, and a backslash at the end. -/
theorem superscript_name_reads_back :
    Solidly "²c:\\".toList ∧ meaning? "\\b2 c\\:\\\\".toList = some "²c:\\".toList := by
  have solid : Solidly "²c:\\".toList := by decide
  have spelt : escape "²c:\\".toList = "\\b2 c\\:\\\\".toList := by decide
  exact ⟨solid, spelt ▸ (escaped_name_reads_back solid).2.1⟩

end CascadeLens.Proofs.SpelledNames
