import CascadeLens.Proofs.EscapedNames
import CascadeLens.Proofs.FeatureSearch

/-! Telling names apart by how they are escaped. Where one escaped name can be read in the place of another, and
ends where the search lets a name end, the two are the same. -/

namespace CascadeLens.Proofs.EscapedPrefixes
open Text Selector EscapedNames

section Codes

theorem hexNumber_snoc (digits : Text) (c : Char) : hexNumber (digits ++ [c]) = 16 * hexNumber digits + hexValue c := by
  simp [hexNumber]

theorem hexNumber_hexText (value : Nat) : hexNumber (hexText value) = value := by
  induction value using Nat.strong_induction_on with
  | _ value ih =>
    have small : ∀ digit < 16, hexValue (Nat.digitChar digit) = digit := by decide
    rw [hexText, Nat.toDigits_eq_if (by decide)]
    split
    next less => simpa [hexNumber] using small value less
    next more =>
      have front : hexNumber (Nat.toDigits 16 (value / 16)) = value / 16 := ih (value / 16) (by omega)
      rw [hexNumber_snoc, front, small (value % 16) (by omega)]
      omega

theorem hexText_injective {c d : Char} (same : hexText c.toNat = hexText d.toNat) : c = d := by
  have codes : c.toNat = d.toNat := by rw [← hexNumber_hexText c.toNat, same, hexNumber_hexText]
  rw [← Char.ofNat_toNat c, codes, Char.ofNat_toNat]

end Codes

section Escapes

variable {c d : Char} {name other after rest : Text}

theorem escapeChar_spec (c : Char) :
    isPlain c = true ∧ escapeChar c = [c] ∨ isPlain c = false ∧ escapeChar c = ['\\', c] := by
  cases plain : isPlain c <;> simp [escapeChar, plain]

theorem escapeChar_cancel (same : escapeChar c ++ after = escapeChar d ++ rest) : c = d ∧ after = rest := by
  rcases escapeChar_spec c with ⟨plain, own⟩ | ⟨_, own⟩
  all_goals rcases escapeChar_spec d with ⟨plain', own'⟩ | ⟨_, own'⟩
  all_goals simp only [own, own', List.cons_append, List.nil_append, List.cons.injEq, true_and] at same
  · exact same
  · exact absurd plain (by rw [same.1]; decide)
  · exact absurd plain' (by rw [← same.1]; decide)
  · exact same

theorem flatMap_plain (plain : ∀ c ∈ name, isPlain c = true) : name.flatMap escapeChar = name := by
  have single : ∀ c ∈ name, escapeChar c = [c] := fun c member => if_pos (plain c member)
  rw [List.flatMap_congr single, List.flatMap_singleton']

/-- No name ends in front of a character that is escaped. -/
theorem endsName_escapeChar (solid : isBlank c = false) (s : Text) : endsName (escapeChar c ++ s) = false := by
  have marks : ∀ mark ∈ [',', ':', '.', '[', '#', '>', '+', '~', ')'], isPlain mark = false := by decide
  rcases escapeChar_spec c with ⟨plain, own⟩ | ⟨_, own⟩
  · have letter : c ∉ [',', ':', '.', '[', '#', '>', '+', '~', ')'] := fun member => by
      rw [marks c member] at plain
      cases plain
    rw [own, List.singleton_append, endsName, solid, decide_eq_false letter, Bool.or_false]
  · rw [own]
    rfl

/-- Nothing, or what begins with the dot of the next class. -/
def Dotted (s : Text) : Prop := ∀ c, s.head? = some c → c = '.'

theorem Dotted.ends (dotted : Dotted rest) : endsName rest = true := by
  cases rest with
  | nil => rfl
  | cons c more =>
    obtain rfl := dotted c rfl
    rfl

theorem escapeChar_undotted (dotted : Dotted rest) : escapeChar c ++ after ≠ rest := by
  rintro rfl
  rcases escapeChar_spec c with ⟨plain, own⟩ | ⟨_, own⟩
  · rw [own] at dotted
    exact absurd plain (by rw [dotted c rfl]; decide)
  · rw [own] at dotted
    exact absurd (dotted '\\' rfl) (by decide)

/-- An escaped name that is read where another stands is the other one. -/
theorem eq_of_flatMap (solid : Solidly other) (dotted : Dotted rest) (ends : endsName after = true)
    (same : name.flatMap escapeChar ++ after = other.flatMap escapeChar ++ rest) : name = other := by
  induction name generalizing other with
  | nil =>
    cases other with
    | nil => rfl
    | cons d others =>
      -- The name sought would end in the middle of the one that stands there.
      have far := endsName_escapeChar (solid d List.mem_cons_self) (others.flatMap escapeChar ++ rest)
      rw [List.flatMap_nil, List.nil_append, List.flatMap_cons, List.append_assoc] at same
      rw [← same, ends] at far
      cases far
  | cons c name ih =>
    cases other with
    | nil =>
      rw [List.flatMap_cons, List.append_assoc] at same
      exact absurd same (escapeChar_undotted dotted)
    | cons d others =>
      rw [List.flatMap_cons, List.flatMap_cons, List.append_assoc, List.append_assoc] at same
      obtain ⟨rfl, later⟩ := escapeChar_cancel same
      rw [ih (List.forall_mem_cons.mp solid).2 later]

/-- A digit that is written by its code is not read where a character is escaped by itself. -/
theorem coded_apart (digit : isDigit c = true) (name : Text) : escape (c :: name) ++ after ≠ escapeChar d ++ rest := by
  obtain ⟨first, more, digits⟩ := List.exists_cons_of_ne_nil (hexText_code c).filled
  have plain : isPlain first = true := plain_of_hex (hex_digit first (digits ▸ List.mem_cons_self))
  intro same
  rw [escape_digit digit, digits] at same
  rcases escapeChar_spec d with ⟨plain', own⟩ | ⟨marked, own⟩
  · rw [own] at same
    exact absurd plain' (by rw [← (List.cons.inj same).1]; decide)
  · rw [own] at same
    obtain ⟨rfl, -⟩ := List.cons.inj (List.cons.inj same).2
    rw [plain] at marked
    cases marked

/-- A mark that does not stand in the front of a text stands in the rest. -/
theorem split_behind {mark : Char} {front before behind s : Text} (absent : mark ∉ front)
    (whole : front ++ s = before ++ mark :: behind) : ∃ more, before = front ++ more ∧ s = more ++ mark :: behind := by
  rcases List.append_eq_append_iff.mp whole with later | ⟨gap, rfl, later⟩
  · exact later
  · cases gap with
    | nil => exact ⟨[], by simp, later.symm⟩
    | cons c gap =>
      obtain ⟨rfl, -⟩ := List.cons.inj later
      exact absurd (List.mem_append_right before List.mem_cons_self) absent

theorem eq_of_coded (digit : isDigit c = true) (digit' : isDigit d = true)
    (same : escape (c :: name) ++ after = escape (d :: other) ++ rest) :
    c = d ∧ name.flatMap escapeChar ++ after = other.flatMap escapeChar ++ rest := by
  have solid : ∀ value, ' ' ∉ hexText value := not_mem_hexText (by decide)
  simp only [escape_digit digit, escape_digit digit', List.cons_append, List.append_assoc, List.cons.injEq,
    true_and] at same
  obtain ⟨more, codes, behind⟩ := split_behind (solid c.toNat) same
  cases more with
  | nil => exact ⟨hexText_injective (by simpa using codes.symm), (List.cons.inj behind).2⟩
  | cons e more =>
    obtain ⟨rfl, -⟩ := List.cons.inj behind
    exact absurd (codes ▸ List.mem_append_right _ List.mem_cons_self) (solid d.toNat)

theorem escape_undotted (filled : name ≠ []) (dotted : Dotted rest) : escape name ++ after ≠ rest := by
  obtain ⟨c, more, rfl⟩ := List.exists_cons_of_ne_nil filled
  cases digit : isDigit c with
  | true =>
    rw [escape_digit digit]
    rintro rfl
    exact absurd (dotted '\\' rfl) (by decide)
  | false =>
    rw [escape_other digit, List.flatMap_cons, List.append_assoc]
    exact escapeChar_undotted dotted

theorem eq_of_escape (filled : name ≠ []) (solid : Solidly other) (dotted : Dotted rest) (ends : endsName after = true)
    (same : escape name ++ after = escape other ++ rest) : name = other := by
  obtain ⟨c, more, rfl⟩ := List.exists_cons_of_ne_nil filled
  cases other with
  | nil => exact absurd same (escape_undotted filled dotted)
  | cons d others =>
    cases digit : isDigit c with
    | true =>
      cases digit' : isDigit d with
      | true =>
        obtain ⟨rfl, later⟩ := eq_of_coded digit digit' same
        rw [eq_of_flatMap (List.forall_mem_cons.mp solid).2 dotted ends later]
      | false =>
        rw [escape_other digit', List.flatMap_cons, List.append_assoc] at same
        exact absurd same (coded_apart digit more)
    | false =>
      cases digit' : isDigit d with
      | true =>
        rw [escape_other digit, List.flatMap_cons, List.append_assoc] at same
        exact absurd same.symm (coded_apart digit' others)
      | false =>
        rw [escape_other digit, escape_other digit'] at same
        exact eq_of_flatMap solid dotted ends same

/-- Without dots and backslashes, a text that is read where a name stands is plain. -/
theorem plain_of_flatMap (bare : '\\' ∉ name) (undotted : '.' ∉ name) (dotted : Dotted rest)
    (same : name ++ after = other.flatMap escapeChar ++ rest) : ∀ c ∈ name, isPlain c = true := by
  induction name generalizing other with
  | nil => exact fun _ member => absurd member List.not_mem_nil
  | cons c name ih =>
    obtain ⟨own, bare⟩ := not_or.mp (mt List.mem_cons.mpr bare)
    obtain ⟨own', undotted⟩ := not_or.mp (mt List.mem_cons.mpr undotted)
    cases other with
    | nil =>
      rw [List.flatMap_nil, List.nil_append] at same
      exact absurd (dotted c (same ▸ rfl)) (Ne.symm own')
    | cons d others =>
      rw [List.flatMap_cons, List.append_assoc] at same
      rcases escapeChar_spec d with ⟨plain, spelt⟩ | ⟨_, spelt⟩
      · rw [spelt] at same
        obtain ⟨rfl, later⟩ := List.cons.inj same
        exact List.forall_mem_cons.mpr ⟨plain, ih bare undotted later⟩
      · rw [spelt] at same
        exact absurd (List.cons.inj same).1.symm own

/-- A text that is not escaped is read only where the same plain name stands. -/
theorem eq_of_bare (bare : '\\' ∉ name) (undotted : '.' ∉ name) (solid : Solidly other) (dotted : Dotted rest)
    (ends : endsName after = true) (same : name ++ after = other.flatMap escapeChar ++ rest) :
    (∀ c ∈ name, isPlain c = true) ∧ name = other := by
  have plain := plain_of_flatMap bare undotted dotted same
  refine ⟨plain, eq_of_flatMap solid dotted ends ?_⟩
  rwa [flatMap_plain plain]

theorem escape_uncoded (uncoded : name.head?.any isDigit = false) : escape name = name.flatMap escapeChar := by
  cases name with
  | nil => rfl
  | cons c more => exact escape_other uncoded more

theorem eq_of_bare_escape (filled : name ≠ []) (bare : '\\' ∉ name) (undotted : '.' ∉ name) (solid : Solidly other)
    (dotted : Dotted rest) (ends : endsName after = true) (same : name ++ after = escape other ++ rest) :
    name = other := by
  have uncoded : other.head?.any isDigit = false := by
    obtain ⟨c, more, rfl⟩ := List.exists_cons_of_ne_nil filled
    cases other with
    | nil => rfl
    | cons d others =>
      by_contra digit
      rw [escape_digit (by simpa using digit)] at same
      exact bare ((List.cons.inj same).1 ▸ List.mem_cons_self)
  rw [escape_uncoded uncoded] at same
  exact (eq_of_bare bare undotted solid dotted ends same).2

end Escapes

end CascadeLens.Proofs.EscapedPrefixes
