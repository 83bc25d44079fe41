import CascadeLens.Proofs.TextShape
import CascadeLens.Proofs.SelectorWriting

/-! The names in selectors: the characters they are made of, and which of them are names of
functions when case is ignored. -/

namespace CascadeLens.Proofs.SelectorNames
open Text Selector SelectorWriting TextShape

theorem every_ascii {p : Char → Prop} (small : ∀ code < 128, p (Char.ofNat code)) {c : Char} (ascii : isAscii c = true) :
    p c := by
  have same := small c.toNat (by simpa [isAscii] using ascii)
  rwa [Char.ofNat_toNat] at same

theorem isAscii_of_isAlphanum {c : Char} (letter : c.isAlphanum = true) : isAscii c = true := by
  delta Char.isAlphanum Char.isAlpha Char.isUpper Char.isLower Char.isDigit at letter
  simp only [Bool.or_eq_true, Bool.and_eq_true, decide_eq_true_eq, UInt32.le_iff_toNat_le] at letter
  have capital : 'Z'.val.toNat = 90 := rfl
  have small : 'z'.val.toNat = 122 := rfl
  have digit : '9'.val.toNat = 57 := rfl
  have code : c.toNat = c.val.toNat := rfl
  simp only [isAscii, decide_eq_true_eq]
  omega

theorem lower_ascii {s : Text} (ascii : ∀ c ∈ s, isAscii c = true) : lower s = s.map lowerChar := by
  have after : ∀ cased, lowerAfter cased s = s.map lowerChar := by
    induction s with
    | nil => exact fun _ => rfl
    | cons c rest ih =>
      intro cased
      obtain ⟨own, others⟩ := List.forall_mem_cons.mp ascii
      have sigma : c ≠ 'Σ' := by
        rintro rfl
        cases own
      have dotted : c ≠ 'İ' := by
        rintro rfl
        cases own
      simp [lowerAfter, sigma, dotted, ih others]
  exact after false

/-- Letters that have no ASCII relatives when case is ignored but their capitals. -/
def Common (letter : Char) : Prop := lowerChar letter = letter ∧ ∀ code ∈ siblingsOf letter, 128 ≤ code

instance (letter : Char) : Decidable (Common letter) := inferInstanceAs (Decidable (_ ∧ _))

theorem sameLetter_iff {letter c : Char} (common : Common letter) (ascii : isAscii c = true) :
    sameLetter letter c = true ↔ lowerChar c = letter := by
  have small : isAscii (lowerChar c) = true := @every_ascii (fun c => isAscii (lowerChar c) = true) (by decide) c ascii
  have far : (lowerChar c).toNat ∉ siblingsOf letter := by
    intro member
    have large := common.2 _ member
    simp only [isAscii, decide_eq_true_eq] at small
    omega
  simp [sameLetter, common.1, far]

theorem dropWord_iff {word s : Text} (common : ∀ letter ∈ word, Common letter) (ascii : ∀ c ∈ s, isAscii c = true) :
    dropWord? word s = some [] ↔ s.map lowerChar = word := by
  induction word generalizing s with
  | nil => simp [dropWord?]
  | cons letter word ih =>
    obtain ⟨own, others⟩ := List.forall_mem_cons.mp common
    cases s with
    | nil => simp [dropWord?]
    | cons c rest =>
      obtain ⟨first, later⟩ := List.forall_mem_cons.mp ascii
      have same := sameLetter_iff own first
      by_cases alike : lowerChar c = letter
      · simp [dropWord?, same.mpr alike, alike, ih others later]
      · simp [dropWord?, mt same.mp alike, alike]

theorem isOneOf_eq {words : List String} {name : Text} (common : ∀ word ∈ words, ∀ letter ∈ word.toList, Common letter)
    (ascii : ∀ c ∈ name, isAscii c = true) : isOneOf words name = words.any (lower name == ·.toList) := by
  rw [Bool.eq_iff_iff, isOneOf, List.any_eq_true, List.any_eq_true, lower_ascii ascii]
  refine exists_congr fun word => and_congr_right fun member => ?_
  simpa using dropWord_iff (common word member) ascii

section Identifiers

variable (name : Identifier)

theorem identifier_cons : ∃ c rest, name.1 = c :: rest ∧ (c.isAlpha = true ∨ c = '_') ∧
    ∀ d ∈ rest, d.isAlphanum = true ∨ d = '_' ∨ d = '-' := by
  obtain ⟨text, spelt⟩ := name
  cases text with
  | nil => cases spelt
  | cons c rest => exact ⟨c, rest, rfl, by simpa [isIdentifier, or_assoc] using spelt⟩

theorem identifier_filled : name.1 ≠ [] := by
  obtain ⟨c, more, spelt, _⟩ := identifier_cons name
  simp [spelt]

theorem identifier_char : ∀ c ∈ name.1, c.isAlphanum = true ∨ c = '_' ∨ c = '-' := by
  obtain ⟨first, rest, spelt, begins, others⟩ := identifier_cons name
  rw [spelt]
  refine List.forall_mem_cons.mpr ⟨?_, others⟩
  rcases begins with letter | rfl
  · exact Or.inl (by simp [Char.isAlphanum, letter])
  · exact Or.inr (Or.inl rfl)

theorem identifier_ascii : ∀ c ∈ name.1, isAscii c = true := by
  intro c member
  rcases identifier_char name c member with letter | rfl | rfl
  · exact isAscii_of_isAlphanum letter
  · rfl
  · rfl

theorem identifier_isNameChar : ∀ c ∈ name.1, isNameChar c = true := by
  intro c member
  exact @every_ascii (fun c => c.isAlphanum = true ∨ c = '_' ∨ c = '-' → isNameChar c = true) (by decide) c
    (identifier_ascii name c member) (identifier_char name c member)

/-- Characters that begin anything but a name. -/
def marks : List Char := ['-', '\\', '/', ':', '.', '#', '[', '>', '+', '~', '|', '&', '*', ',', ')']

theorem identifier_begins {c : Char} {rest : Text} (spelt : name.1 = c :: rest) :
    c ∉ marks ∧ isBlank c = false ∧ (c.isAlpha = true ∨ c = '_') := by
  obtain ⟨first, more, spelt', begins, _⟩ := identifier_cons name
  obtain ⟨rfl, rfl⟩ := List.cons.inj (spelt.symm.trans spelt')
  have ascii := identifier_ascii name c (spelt ▸ List.mem_cons_self)
  have apart := @every_ascii (fun c => c.isAlpha = true ∨ c = '_' → c ∉ marks ∧ isBlank c = false) (by decide) c
    ascii begins
  exact ⟨apart.1, apart.2, begins⟩

theorem lower_begins {rest : Text} : lower name.1 ≠ '-' :: rest := by
  intro same
  obtain ⟨c, more, spelt, begins, _⟩ := identifier_cons name
  have ascii := identifier_ascii name
  rw [lower_ascii ascii, spelt] at same
  exact @every_ascii (fun c => c.isAlpha = true ∨ c = '_' → lowerChar c ≠ '-') (by decide) c
    (ascii c (spelt ▸ List.mem_cons_self)) begins (List.cons.inj same).1

theorem listFunction_listed {function : ListFunction} (named : Names function name) :
    listFunction? (colonsOf function).length name = some function := by
  obtain ⟨word, member, spelt⟩ := named
  have ascii := identifier_ascii name
  rw [listFunction?, isOneOf_eq (by decide) ascii, isOneOf_eq (by decide +kernel) ascii, spelt]
  have listed : ∀ function, ∀ word ∈ listNames function,
      (if ["host-context", "host", "slotted"].any (word.toList == ·.toList) then
        some (if (colonsOf function).length == 2 then .slotted else .host)
      else if (colonsOf function).length == 1
          && ["is", "not", "has", "where", "matches", "-webkit-any", "-moz-any"].any (word.toList == ·.toList) then
        some (if word.toList == "where".toList then .whereOf else .anyOf)
      else none) = some function := by
    intro function
    cases function <;> decide
  exact listed function word member

end Identifiers

private theorem any_free (name : FreeName) {words : List String}
    (reserved : ∀ word ∈ words, word ∈ [.anyOf, .whereOf, .host, .slotted].flatMap listNames ∨ word.toList.head? = some '-') :
    words.any (lower name.1 == ·.toList) = false := by
  rw [List.any_eq_false]
  intro word member same
  have same : lower name.1 = word.toList := by simpa using same
  rcases reserved word member with listed | dashed
  · obtain ⟨function, _, among⟩ := List.mem_flatMap.mp listed
    exact name.2 function ⟨word, among, same⟩
  · obtain ⟨rest, spelt⟩ := List.head?_eq_some_iff.mp dashed
    exact lower_begins name.1 (same.trans spelt)

theorem listFunction_free (name : FreeName) (colons : Nat) : listFunction? colons name.1 = none := by
  have ascii := identifier_ascii name.1
  rw [listFunction?, isOneOf_eq (by decide) ascii, isOneOf_eq (by decide +kernel) ascii,
    any_free name (by decide), any_free name (by decide)]
  simp

end CascadeLens.Proofs.SelectorNames
