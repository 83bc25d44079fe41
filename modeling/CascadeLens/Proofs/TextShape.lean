import CascadeLens.Text.Letter
import Mathlib.Data.List.Basic

/-! Shapes of text: brackets that are opened and closed, and where blanks can stand, which is not at
the ends of trimmed text and only as single spaces between the words of spaced text. -/

namespace CascadeLens.Proofs.TextShape
open Text

/-- What holds of every character of a text is decided along the text, never over all characters. -/
instance (priority := 2000) decidableCharacters {p : Char → Prop} [DecidablePred p] (s : Text) :
    Decidable (∀ c ∈ s, p c) :=
  List.decidableBAll p s

section Brackets

/-- How many brackets are open behind a character, `none` if it closes one that was never opened. -/
def balanceStep (opener closer : Char) (depth : Nat) (c : Char) : Option Nat :=
  if c = opener then some (depth + 1)
  else if c = closer then
    match depth with
    | 0 => none
    | depth + 1 => some depth
  else some depth

def balanceFrom (opener closer : Char) (depth : Nat) (s : Text) : Option Nat :=
  s.foldlM (balanceStep opener closer) depth

def Paired (opener closer : Char) (s : Text) : Prop := balanceFrom opener closer 0 s = some 0

instance (opener closer : Char) (s : Text) : Decidable (Paired opener closer s) :=
  inferInstanceAs (Decidable (_ = _))

theorem balanceFrom_append (opener closer : Char) (depth : Nat) (s t : Text) :
    balanceFrom opener closer depth (s ++ t) =
      (balanceFrom opener closer depth s).bind fun middle => balanceFrom opener closer middle t :=
  List.foldlM_append

theorem balanceFrom_flat {opener closer : Char} {s : Text} (flat : ∀ c ∈ s, c ≠ opener ∧ c ≠ closer) (depth : Nat) :
    balanceFrom opener closer depth s = some depth := by
  induction s with
  | nil => rfl
  | cons c rest ih =>
    obtain ⟨⟨opens, closes⟩, others⟩ := List.forall_mem_cons.mp flat
    have first : balanceStep opener closer depth c = some depth := by simp [balanceStep, opens, closes]
    rw [balanceFrom, List.foldlM_cons, first]
    exact ih others

end Brackets

section Blanks

structure Trimmed (s : Text) : Prop where
  first : ∀ c, s.head? = some c → isBlank c = false
  last : ∀ c, s.getLast? = some c → isBlank c = false

instance (s : Text) : Decidable (Trimmed s) :=
  decidable_of_iff (s.head?.all (!isBlank ·) = true ∧ s.getLast?.all (!isBlank ·) = true) (by
    simp only [Option.all_eq_true, Bool.not_eq_true']
    exact ⟨fun ⟨first, last⟩ => ⟨first, last⟩, fun ⟨first, last⟩ => ⟨first, last⟩⟩)

theorem trimLeft_eq_self {s : Text} (first : ∀ c, s.head? = some c → isBlank c = false) : trimLeft s = s := by
  cases s with
  | nil => rfl
  | cons c rest => simp [trimLeft, first c rfl]

theorem trim_eq_self {s : Text} (trimmed : Trimmed s) : trim s = s := by
  have reversed : s.reverse.dropWhile isBlank = s.reverse :=
    trimLeft_eq_self fun c found => trimmed.last c (by simpa using found)
  rw [trim, trimLeft_eq_self trimmed.first, trimRight, reversed, List.reverse_reverse]

theorem trim_cons {c : Char} (solid : isBlank c = false) (s : Text) : trim (c :: s) = c :: trimRight s := by
  have first : trimLeft (c :: s) = c :: s := trimLeft_eq_self fun d found => Option.some.inj found ▸ solid
  rw [trim, first, trimRight, trimRight, List.reverse_cons, List.dropWhile_append]
  split
  next nothing =>
    rw [List.isEmpty_iff.mp nothing]
    simp [solid]
  next => simp

theorem trimLeft_spec (s : Text) : ∃ before, s = before ++ trimLeft s ∧ ∀ c ∈ before, isBlank c = true :=
  ⟨s.takeWhile isBlank, List.takeWhile_append_dropWhile.symm, List.all_eq_true.mp List.all_takeWhile⟩

theorem trimRight_spec (s : Text) : ∃ after, s = trimRight s ++ after ∧ ∀ c ∈ after, isBlank c = true := by
  obtain ⟨before, whole, white⟩ := trimLeft_spec s.reverse
  refine ⟨before.reverse, ?_, fun c member => white c (List.mem_reverse.mp member)⟩
  rw [trimRight, ← List.reverse_append]
  exact List.reverse_eq_iff.mp whole

/-- Trimming leaves out blanks at the ends only. -/
theorem trim_spec (s : Text) : ∃ before after, s = before ++ (trim s ++ after) ∧
    (∀ c ∈ before, isBlank c = true) ∧ ∀ c ∈ after, isBlank c = true := by
  obtain ⟨before, front, white⟩ := trimLeft_spec s
  obtain ⟨after, back, white'⟩ := trimRight_spec (trimLeft s)
  exact ⟨before, after, by rw [trim, ← back, ← front], white, white'⟩

theorem mem_trim {s : Text} {c : Char} (member : c ∈ trim s) : c ∈ s := by
  obtain ⟨before, after, whole, _⟩ := trim_spec s
  exact whole ▸ List.mem_append_right before (List.mem_append_left after member)

private theorem trimLeft_first {s : Text} {c : Char} (first : (trimLeft s).head? = some c) : isBlank c = false := by
  have stopped := List.head?_dropWhile_not isBlank s
  rw [trimLeft] at first
  rw [first] at stopped
  simpa using stopped

theorem trim_trimmed (s : Text) : Trimmed (trim s) where
  first c found := by
    obtain ⟨after, whole, _⟩ := trimRight_spec (trimLeft s)
    apply trimLeft_first (s := s)
    rw [trim] at found
    rw [whole, List.head?_append, found]
    rfl
  last c found := by
    rw [trim, trimRight, List.getLast?_reverse] at found
    exact trimLeft_first found

theorem trimLeft_behind_blanks {before : Text} (white : ∀ c ∈ before, isBlank c = true) (s : Text) :
    trimLeft (before ++ s) = trimLeft s := by
  rw [trimLeft, List.dropWhile_append_of_pos white]
  rfl

theorem trimRight_before_blanks {after : Text} (white : ∀ c ∈ after, isBlank c = true) (s : Text) :
    trimRight (s ++ after) = trimRight s := by
  have behind : ∀ c ∈ after.reverse, isBlank c = true := fun c member => white c (List.mem_reverse.mp member)
  rw [trimRight, List.reverse_append, List.dropWhile_append_of_pos behind]
  rfl

theorem trimRight_append {t : Text} (filled : trimRight t ≠ []) (s : Text) : trimRight (s ++ t) = s ++ trimRight t := by
  have left : t.reverse.dropWhile isBlank ≠ [] := fun empty => filled (by rw [trimRight, empty]; rfl)
  rw [trimRight, List.reverse_append, List.dropWhile_append, if_neg (by simpa using left), List.reverse_append,
    List.reverse_reverse]
  rfl

theorem trim_between_blanks {before s after : Text} (white : ∀ c ∈ before, isBlank c = true)
    (white' : ∀ c ∈ after, isBlank c = true) (trimmed : Trimmed s) : trim (before ++ (s ++ after)) = s := by
  rw [trim, trimLeft_behind_blanks white]
  cases s with
  | nil =>
    have silent : trimLeft (after ++ []) = [] := trimLeft_behind_blanks white' []
    rw [List.append_nil] at silent
    rw [List.nil_append, silent]
    rfl
  | cons c rest =>
    have first : trimLeft (c :: rest ++ after) = c :: rest ++ after :=
      trimLeft_eq_self fun d found => trimmed.first d (by simpa using found)
    have same := trim_eq_self trimmed
    rw [trim, trimLeft_eq_self trimmed.first] at same
    rw [first, trimRight_before_blanks white', same]

theorem trim_before_blanks {after : Text} (white : ∀ c ∈ after, isBlank c = true) (s : Text) :
    trim (s ++ after) = trim s := by
  obtain ⟨before, behind, whole, front, back⟩ := trim_spec s
  conv_lhs => rw [whole, List.append_assoc, List.append_assoc]
  exact trim_between_blanks front (List.forall_mem_append.mpr ⟨back, white⟩) (trim_trimmed s)

private theorem wordsFrom_filled {s begun : Text} (solid : ∀ c ∈ begun, isBlank c = false) :
    ∀ word ∈ wordsFrom begun s, word ≠ [] ∧ ∀ c ∈ word, isBlank c = false := by
  have ended : begun.isEmpty = false → begun.reverse ≠ [] ∧ ∀ c ∈ begun.reverse, isBlank c = false := by
    intro filled
    exact ⟨by simpa using filled, fun c member => solid c (List.mem_reverse.mp member)⟩
  induction s generalizing begun with
  | nil =>
    intro word member
    unfold wordsFrom at member
    split at member
    · cases member
    next filled => exact List.mem_singleton.mp member ▸ ended (by simpa using filled)
  | cons c rest ih =>
    intro word member
    unfold wordsFrom at member
    split at member
    · split at member
      · exact ih (by simp) (by simp) word member
      next filled =>
        rcases List.mem_cons.mp member with rfl | later
        · exact ended (by simpa using filled)
        · exact ih (by simp) (by simp) word later
    next letter =>
      have longer : ∀ d ∈ c :: begun, isBlank d = false := by
        intro d inside
        rcases List.mem_cons.mp inside with rfl | old
        · simpa using letter
        · exact solid d old
      refine ih longer ?_ word member
      exact fun _ => ⟨by simp, fun d inside => longer d (List.mem_reverse.mp inside)⟩

theorem words_filled {s word : Text} (member : word ∈ words s) : word ≠ [] ∧ ∀ c ∈ word, isBlank c = false :=
  wordsFrom_filled (by simp) word member

private theorem intercalate_trimmed {all : List Text} (filled : ∀ word ∈ all, word ≠ [] ∧ ∀ c ∈ word, isBlank c = false) :
    Trimmed ([' '].intercalate all) := by
  induction all with
  | nil => exact ⟨fun _ found => (nomatch found), fun _ found => (nomatch found)⟩
  | cons word rest ih =>
    obtain ⟨⟨nonempty, solid⟩, others⟩ := List.forall_mem_cons.mp filled
    obtain ⟨c, letters, rfl⟩ := List.exists_cons_of_ne_nil nonempty
    cases rest with
    | nil =>
      rw [List.intercalate_singleton]
      exact ⟨fun d found => solid d (List.mem_of_head? found), fun d found => solid d (List.mem_of_getLast? found)⟩
    | cons next more =>
      obtain ⟨d, others', rfl⟩ := List.exists_cons_of_ne_nil (others next List.mem_cons_self).1
      rw [List.intercalate_cons_cons]
      refine ⟨fun e found => solid e ?_, fun e found => (ih others).last e ?_⟩
      · simp only [List.cons_append, List.head?_cons] at found
        exact Option.some.inj found ▸ List.mem_cons_self
      · rwa [List.getLast?_append_of_ne_nil] at found
        cases more <;> simp [List.intercalate_singleton, List.intercalate_cons_cons]

theorem mem_intercalate {all : List Text} {c glue : Char} (member : c ∈ [glue].intercalate all) :
    c = glue ∨ ∃ word ∈ all, c ∈ word := by
  induction all with
  | nil => cases member
  | cons word rest ih =>
    cases rest with
    | nil => exact Or.inr ⟨word, List.mem_cons_self, by simpa [List.intercalate_singleton] using member⟩
    | cons next more =>
      simp only [List.intercalate_cons_cons, List.mem_append, List.mem_singleton] at member
      rcases member with (inside | space) | later
      · exact Or.inr ⟨word, List.mem_cons_self, inside⟩
      · exact Or.inl space
      · exact (ih later).imp_right fun ⟨other, listed, inside⟩ => ⟨other, List.mem_cons_of_mem _ listed, inside⟩

private theorem wordsFrom_solid {begun s : Text} (solid : ∀ c ∈ s, isBlank c = false) (t : Text) :
    wordsFrom begun (s ++ t) = wordsFrom (s.reverse ++ begun) t := by
  induction s generalizing begun with
  | nil => rfl
  | cons c rest ih =>
    obtain ⟨own, others⟩ := List.forall_mem_cons.mp solid
    simp [wordsFrom, own, ih others]

theorem words_solid {s : Text} (filled : s ≠ []) (solid : ∀ c ∈ s, isBlank c = false) : words s = [s] := by
  have read := @wordsFrom_solid [] s solid []
  rw [List.append_nil, List.append_nil] at read
  rw [words, read]
  simp [wordsFrom, filled]

theorem words_parted {s : Text} (filled : s ≠ []) (solid : ∀ c ∈ s, isBlank c = false) (t : Text) :
    words (s ++ ' ' :: t) = s :: words t := by
  have read := @wordsFrom_solid [] s solid (' ' :: t)
  rw [List.append_nil] at read
  rw [words, read]
  simp [wordsFrom, filled, words, show isBlank ' ' = true by decide]

theorem spaced_trimmed (s : Text) : Trimmed (spaced s) := intercalate_trimmed fun _ member => words_filled member

theorem blank_in_spaced {s : Text} {c : Char} (member : c ∈ spaced s) (white : isBlank c = true) : c = ' ' := by
  rcases mem_intercalate member with space | ⟨word, listed, inside⟩
  · exact space
  · rw [(words_filled listed).2 c inside] at white
    cases white

@[simp] theorem spaced_cons_space (s : Text) : spaced (' ' :: s) = spaced s := by
  rfl

def blankCodes : List Nat :=
  [9, 10, 11, 12, 13, 28, 29, 30, 31, 32, 0x85, 0xA0, 0x1680, 0x2000, 0x2001, 0x2002, 0x2003, 0x2004, 0x2005,
    0x2006, 0x2007, 0x2008, 0x2009, 0x200A, 0x2028, 0x2029, 0x202F, 0x205F, 0x3000]

theorem blank_code {c : Char} (white : isBlank c = true) : c.toNat ∈ blankCodes := by
  simp only [isBlank, Bool.or_eq_true, Bool.and_eq_true, decide_eq_true_eq, beq_iff_eq] at white
  generalize c.toNat = code at white ⊢
  have between : ∀ {first last}, first ≤ code ∧ code ≤ last → code ∈ List.range' first (last + 1 - first) := by
    intro first last bounds
    rw [List.mem_range'_1]
    omega
  have controls : List.range' 9 (13 + 1 - 9) ⊆ blankCodes := by decide
  have separators : List.range' 28 (32 + 1 - 28) ⊆ blankCodes := by decide
  have spaces : List.range' 0x2000 (0x200A + 1 - 0x2000) ⊆ blankCodes := by decide
  rcases white with (((((((((range | range) | rfl) | rfl) | rfl) | range) | rfl) | rfl) | rfl) | rfl) | rfl
  · exact controls (between range)
  · exact separators (between range)
  · decide
  · decide
  · decide
  · exact spaces (between range)
  all_goals simp [blankCodes]

theorem not_blank_of_isNameChar {c : Char} (letter : isNameChar c = true) : isBlank c = false := by
  have none : ∀ code ∈ blankCodes, isNameChar (Char.ofNat code) = false := by decide +kernel
  by_contra white
  have silent := none c.toNat (blank_code (by simpa using white))
  rw [Char.ofNat_toNat, letter] at silent
  cases silent

end Blanks

end CascadeLens.Proofs.TextShape
