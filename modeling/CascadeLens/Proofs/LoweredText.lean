import CascadeLens.Proofs.FeatureSpans

/-! Text in lower case. What the mapping gives it leaves alone, so lower case is kept in every part of a text, and blanks
come from blanks only. -/

namespace CascadeLens.Proofs.LoweredText
open Text SelectorNames FeatureSpans

variable {s : Text} {c : Char} {code : Nat}

/-- Where a row of the mapping moves a code to. -/
def shifted (row : Nat × Nat × Nat × Int) (code : Nat) : Nat := ((code : Int) + row.2.2.2).toNat

/-- Where two rows overlap, both move every second code, an odd way apart. -/
private def strides (row other : Nat × Nat × Nat × Int) : Bool :=
  Nat.beq other.2.2.1 2 && ((Nat.beq row.2.2.1 2 || Nat.beq row.1 row.2.1) &&
    Nat.beq ((shifted row row.1 + other.1) % 2) 1)

/-- A row does not give what another one moves. -/
private theorem rows_disjoint : ∀ row ∈ lowerRows, ∀ other ∈ lowerRows,
    shifted row row.2.1 < other.1 ∨ other.2.1 < shifted row row.1 ∨
      other.2.2.1 = 2 ∧ (row.2.2.1 = 2 ∨ row.1 = row.2.1) ∧ (shifted row row.1 + other.1) % 2 = 1 := by
  have apart : (lowerRows.all fun row => lowerRows.all fun other =>
      Nat.blt (shifted row row.2.1) other.1 || (Nat.blt other.2.1 (shifted row row.1) || strides row other)) = true := by
    decide +kernel
  intro row member other member'
  have own := List.all_eq_true.mp (List.all_eq_true.mp apart row member) other member'
  simpa only [strides, Bool.or_eq_true, Bool.and_eq_true, Nat.blt_eq, Nat.beq_eq] using own

private theorem rows_ascii : ∀ row ∈ lowerRows, 128 ≤ shifted row row.1 ∨
    row.1 = row.2.1 ∧ lowerChar (Char.ofNat (shifted row row.1)) = Char.ofNat (shifted row row.1) := by
  decide +kernel

private theorem rows_valid : ∀ row ∈ lowerRows, 0 ≤ (row.1 : Int) + row.2.2.2 ∧ (row.2.1 : Int) + row.2.2.2 < 0xD800 ∨
    0xDFFF < (row.1 : Int) + row.2.2.2 ∧ (row.2.1 : Int) + row.2.2.2 < 0x110000 := by
  decide +kernel

/-- A row of the mapping that moves a code, and where to. -/
structure Moved (code : Nat) (row : Nat × Nat × Nat × Int) (target : Nat) : Prop where
  listed : row ∈ lowerRows
  lower : row.1 ≤ code
  upper : code ≤ row.2.1
  stepped : (code - row.1) % row.2.2.1 = 0
  placed : target = shifted row code

theorem lowerCode_cases (code : Nat) : lowerCode code = code ∨ ∃ row, Moved code row (lowerCode code) := by
  unfold lowerCode
  split
  next first last step shift found =>
    right
    have inside := List.find?_some found
    simp only [Bool.and_eq_true, decide_eq_true_eq, beq_iff_eq] at inside
    exact ⟨_, List.mem_of_find?_eq_some found, inside.1.1, inside.1.2, inside.2, rfl⟩
  next => exact .inl rfl

/-- What a row gives is the code of a character. -/
theorem Moved.valid {row : Nat × Nat × Nat × Int} {target : Nat} (moved : Moved code row target) : target.isValidChar := by
  have range := rows_valid row moved.listed
  have place := moved.placed
  have lower := moved.lower
  have upper := moved.upper
  unfold shifted at place
  unfold Nat.isValidChar
  omega

/-- A row keeps the distance to its first code. -/
theorem Moved.distance {row : Nat × Nat × Nat × Int} {target : Nat} (moved : Moved code row target) :
    target = shifted row row.1 + (code - row.1) ∧ target + (row.2.1 - code) = shifted row row.2.1 := by
  have range := rows_valid row moved.listed
  have place := moved.placed
  have lower := moved.lower
  have upper := moved.upper
  unfold shifted at place ⊢
  omega

theorem lowerCode_lowerCode (code : Nat) : lowerCode (lowerCode code) = lowerCode code := by
  rcases lowerCode_cases code with same | ⟨row, moved⟩
  · rw [same, same]
  · rcases lowerCode_cases (lowerCode code) with same | ⟨other, again⟩
    · exact same
    · have distance := moved.distance
      have lower := moved.lower
      have upper := moved.upper
      have stepped := moved.stepped
      have lower' := again.lower
      have upper' := again.upper
      have stepped' := again.stepped
      rcases rows_disjoint row moved.listed other again.listed with below | above | ⟨two', two, odd⟩
      · omega
      · omega
      · rw [two'] at stepped'
        -- The distance of the two rows is odd, and every code that they move is an even way behind the first one.
        rcases two with two | single
        · rw [two] at stepped
          omega
        · omega

theorem lowerChar_lowerChar (c : Char) : lowerChar (lowerChar c) = lowerChar c := by
  by_cases ascii : Selector.isAscii c = true
  · exact @every_ascii (fun c => lowerChar (lowerChar c) = lowerChar c) (by decide +kernel) c ascii
  · have beyond : lowerChar c = Char.ofNat (lowerCode c.toNat) := if_neg (by simpa [Selector.isAscii] using ascii)
    rcases lowerCode_cases c.toNat with same | ⟨row, moved⟩
    · rw [same, Char.ofNat_toNat] at beyond
      rw [beyond, beyond]
    · have distance := moved.distance
      have code : (Char.ofNat (lowerCode c.toNat)).toNat = lowerCode c.toNat := by
        rw [Char.ofNat, dif_pos moved.valid]
        rfl
      rw [beyond]
      by_cases small : lowerCode c.toNat < 128
      · rcases rows_ascii row moved.listed with large | ⟨single, kept⟩
        · have lower := moved.lower
          omega
        · have lower := moved.lower
          have upper := moved.upper
          rw [show shifted row row.1 = lowerCode c.toNat by omega] at kept
          exact kept
      · rw [lowerChar, code, if_neg small, lowerCode_lowerCode]

/-- Letters in lower case are left alone. -/
theorem lower_of_lowered (lowered : ∀ c ∈ s, lowerChar c = c) : lower s = s := by
  have run : ∀ cased, lowerAfter cased s = s := by
    induction s with
    | nil => exact fun cased => rfl
    | cons c rest ih =>
      have own : lowerChar c = c := lowered c List.mem_cons_self
      have behind := ih fun d member => lowered d (List.mem_cons_of_mem c member)
      have sigma : ¬(c == 'Σ') = true := by
        rw [beq_iff_eq]
        rintro rfl
        exact absurd own (by decide +kernel)
      have dotted : ¬(c == 'İ') = true := by
        rw [beq_iff_eq]
        rintro rfl
        exact absurd own (by decide +kernel)
      intro cased
      rw [lowerAfter, if_neg sigma, if_neg dotted, behind, own]
  exact run false

theorem mem_lowerAfter {cased : Bool} {d : Char} (member : d ∈ lowerAfter cased s) :
    d ∈ ['ς', 'σ', 'i', '\u0307'] ∨ ∃ c ∈ s, d = lowerChar c := by
  induction s generalizing cased with
  | nil => cases member
  | cons c rest ih =>
    have behind : ∀ cased, d ∈ lowerAfter cased rest → d ∈ ['ς', 'σ', 'i', '\u0307'] ∨ ∃ e ∈ c :: rest, d = lowerChar e := by
      intro cased member
      rcases ih member with special | ⟨e, listed, same⟩
      · exact .inl special
      · exact .inr ⟨e, List.mem_cons_of_mem c listed, same⟩
    rw [lowerAfter] at member
    split at member
    · rcases List.mem_cons.mp member with rfl | later
      · left
        split <;> decide
      · exact behind _ later
    · split at member
      · rcases List.mem_cons.mp member with rfl | later
        · exact .inl (by decide)
        · rcases List.mem_cons.mp later with rfl | later
          · exact .inl (by decide)
          · exact behind _ later
      · rcases List.mem_cons.mp member with rfl | later
        · exact .inr ⟨c, List.mem_cons_self, rfl⟩
        · exact behind _ later

theorem lowered_of_lower (s : Text) : ∀ c ∈ lower s, lowerChar c = c := by
  intro c member
  rcases mem_lowerAfter member with special | ⟨d, -, rfl⟩
  · have all : ∀ c ∈ ['ς', 'σ', 'i', '\u0307'], lowerChar c = c := by decide +kernel
    exact all c special
  · exact lowerChar_lowerChar d

theorem solid_of_lower (solid : ∀ c ∈ s, isBlank c = false) : ∀ c ∈ lower s, isBlank c = false := by
  intro c member
  rcases mem_lowerAfter member with special | ⟨d, listed, rfl⟩
  · have all : ∀ c ∈ ['ς', 'σ', 'i', '\u0307'], isBlank c = false := by decide
    exact all c special
  · cases white : isBlank (lowerChar d) with
    | false => rfl
    | true =>
      have alike : sameLetter d (lowerChar d) = true := by simp [sameLetter, lowerChar_lowerChar]
      rw [← sameLetter_divides (.inl white) alike, solid d listed] at white
      cases white

end CascadeLens.Proofs.LoweredText
