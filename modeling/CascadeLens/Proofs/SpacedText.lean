import CascadeLens.Proofs.TextShape

/-! Text whose runs of blanks have become single spaces. What reads a text without regard to how many blanks stand
together reads the same in both. -/

namespace CascadeLens.Proofs.SpacedText
open Text TextShape

/-- Text with every run of blanks as one space, behind a blank or not. -/
def collapseFrom : Bool → Text → Text
  | _, [] => []
  | lag, c :: rest =>
    if isBlank c then
      if lag then collapseFrom true rest else ' ' :: collapseFrom true rest
    else c :: collapseFrom false rest

def collapse (s : Text) : Text := collapseFrom false s

/-- Whether a blank is the last character of a text, or was the last one before it. -/
def lagging (lag : Bool) (s : Text) : Bool := s.foldl (fun _ c => isBlank c) lag

section Collapse

variable {s t : Text} {c : Char} {lag : Bool}

@[simp] theorem collapseFrom_nil (lag : Bool) : collapseFrom lag [] = [] := by rw [collapseFrom]

theorem collapseFrom_solid (solid : isBlank c = false) (lag : Bool) (s : Text) :
    collapseFrom lag (c :: s) = c :: collapseFrom false s := by
  simp [collapseFrom, solid]

theorem collapse_cons (solid : isBlank c = false) (s : Text) : collapse (c :: s) = c :: collapse s :=
  collapseFrom_solid solid false s

theorem collapse_blank (white : isBlank c = true) (s : Text) : collapse (c :: s) = ' ' :: collapseFrom true s := by
  simp [collapse, collapseFrom, white]

theorem collapse_filled (filled : s ≠ []) : collapse s ≠ [] := by
  obtain ⟨c, more, rfl⟩ := List.exists_cons_of_ne_nil filled
  cases white : isBlank c
  · rw [collapse_cons white]
    exact List.cons_ne_nil _ _
  · rw [collapse_blank white]
    exact List.cons_ne_nil _ _

theorem collapseFrom_lag (white : isBlank c = true) (s : Text) : collapseFrom true (c :: s) = collapseFrom true s := by
  simp [collapseFrom, white]

theorem collapseFrom_append (lag : Bool) (s t : Text) :
    collapseFrom lag (s ++ t) = collapseFrom lag s ++ collapseFrom (lagging lag s) t := by
  induction s generalizing lag with
  | nil => simp [lagging]
  | cons c s ih =>
    rw [List.cons_append, collapseFrom.eq_2, collapseFrom.eq_2, lagging, List.foldl_cons]
    cases white : isBlank c
    · simp [ih, lagging]
    · cases lag <;> simp [ih, lagging]

theorem collapse_append (s t : Text) : collapse (s ++ t) = collapse s ++ collapseFrom (lagging false s) t :=
  collapseFrom_append false s t

theorem lagging_last (last : ∀ c, s.getLast? = some c → isBlank c = false) : lagging false s = false := by
  rcases List.eq_nil_or_concat s with rfl | ⟨front, c, rfl⟩
  · rfl
  · rw [List.concat_eq_append] at last ⊢
    simp [lagging, last c (by simp)]

theorem collapse_behind_solid (last : ∀ c, s.getLast? = some c → isBlank c = false) (t : Text) :
    collapse (s ++ t) = collapse s ++ collapse t := by
  rw [collapse_append, lagging_last last, ← collapse]

theorem collapse_behind_blank (white : isBlank c = true) (s t : Text) :
    collapse ((s ++ [c]) ++ t) = collapse (s ++ [c]) ++ collapseFrom true t := by
  rw [collapse_append (s ++ [c])]
  simp [lagging, white]

/-- At most one blank is left where the two texts meet. -/
theorem collapse_before_solid (first : ∀ c, t.head? = some c → isBlank c = false) (s : Text) :
    collapse (s ++ t) = collapse s ++ collapse t := by
  rw [collapse_append]
  cases t with
  | nil => rfl
  | cons c rest => rw [collapse_cons (first c rfl), collapseFrom_solid (first c rfl), ← collapse]

theorem collapse_append_cons (solid : isBlank c = false) (s t : Text) :
    collapse (s ++ c :: t) = collapse s ++ c :: collapse t := by
  rw [collapse_before_solid (fun d first => ?_), collapse_cons solid]
  exact Option.some.inj first ▸ solid

theorem collapse_solid (solid : ∀ c ∈ s, isBlank c = false) : collapse s = s := by
  induction s with
  | nil => rfl
  | cons c s ih =>
    obtain ⟨own, others⟩ := List.forall_mem_cons.mp solid
    rw [collapse_cons own, ih others]

theorem collapseFrom_blanks (white : ∀ c ∈ s, isBlank c = true) (t : Text) :
    collapseFrom true (s ++ t) = collapseFrom true t := by
  induction s with
  | nil => rfl
  | cons c s ih =>
    obtain ⟨own, others⟩ := List.forall_mem_cons.mp white
    rw [List.cons_append, collapseFrom_lag own, ih others]

/-- Blanks in front of a text are one space. -/
theorem collapse_blanks (filled : s ≠ []) (white : ∀ c ∈ s, isBlank c = true) (t : Text) :
    collapse (s ++ t) = ' ' :: collapseFrom true t := by
  obtain ⟨c, more, rfl⟩ := List.exists_cons_of_ne_nil filled
  obtain ⟨own, others⟩ := List.forall_mem_cons.mp white
  rw [List.cons_append, collapse_blank own, collapseFrom_blanks others]

theorem collapseFrom_head (first : ∀ c, s.head? = some c → isBlank c = false) (lag : Bool) : collapseFrom lag s = collapse s := by
  cases s with
  | nil => simp [collapse]
  | cons c s => rw [collapse_cons (first c rfl), collapseFrom_solid (first c rfl), collapse]

/-- Behind a blank those in front go too. -/
theorem collapseFrom_trimLeft (s : Text) : collapseFrom true s = collapse (trimLeft s) := by
  induction s with
  | nil => rfl
  | cons c s ih =>
    cases white : isBlank c
    · have first : ∀ d, (c :: s).head? = some d → isBlank d = false := fun d found => Option.some.inj found ▸ white
      rw [trimLeft_eq_self first, collapseFrom_head first]
    · rw [collapseFrom_lag white, ih, trimLeft, trimLeft, List.dropWhile_cons, if_pos white]

theorem collapse_head (s : Text) : (collapse s).head? = s.head?.map fun c => if isBlank c then ' ' else c := by
  cases s with
  | nil => rfl
  | cons c s =>
    cases white : isBlank c
    · simp [collapse_cons white, white]
    · simp [collapse_blank white, white]

theorem collapseFrom_eq_nil (none : collapseFrom lag s = [])
    (trimmed : ∀ c, s.getLast? = some c → isBlank c = false) : s = [] := by
  rcases List.eq_nil_or_concat s with rfl | ⟨front, c, rfl⟩
  · rfl
  · have solid := trimmed c (by simp)
    rw [List.concat_eq_append, collapseFrom_append, collapseFrom_solid solid] at none
    simp at none

/-- Solid characters are all kept, and nothing else but spaces. -/
theorem mem_collapse (solid : isBlank c = false) (member : c ∈ s) : c ∈ collapseFrom lag s := by
  induction s generalizing lag with
  | nil => cases member
  | cons d s ih =>
    cases white : isBlank d
    · rw [collapseFrom_solid white]
      rcases List.mem_cons.mp member with rfl | later
      · exact List.mem_cons_self
      · exact List.mem_cons_of_mem _ (ih later)
    · have later : c ∈ s := by
        rcases List.mem_cons.mp member with rfl | later
        · exact absurd (white.symm.trans solid) (by decide)
        · exact later
      cases lag
      · rw [← collapse, collapse_blank white]
        exact List.mem_cons_of_mem _ (ih later)
      · rw [collapseFrom_lag white]
        exact ih later

theorem blank_in_collapse (member : c ∈ collapseFrom lag s) (white : isBlank c = true) : c = ' ' := by
  induction s generalizing lag with
  | nil => simp at member
  | cons d s ih =>
    rw [collapseFrom] at member
    split at member
    next =>
      cases lag
      · exact (List.mem_cons.mp member).elim id fun later => ih later
      · exact ih member
    next solid =>
      rcases List.mem_cons.mp member with rfl | later
      · exact absurd white (by simpa using solid)
      · exact ih later

end Collapse

section Spaced

theorem trimRight_cons (c : Char) (s : Text) :
    trimRight (c :: s) = if trimRight s = [] ∧ isBlank c = true then [] else c :: trimRight s := by
  by_cases none : trimRight s = []
  · obtain ⟨after, whole, white⟩ := trimRight_spec s
    obtain rfl : s = after := by simpa [none] using whole
    have cut : trimRight (c :: s) = trimRight [c] := trimRight_before_blanks white [c]
    rw [cut, none]
    cases white : isBlank c <;> simp [trimRight, white]
  · rw [if_neg (fun both => none both.1)]
    exact trimRight_append none [c]

theorem trimRight_last (s : Text) : ∀ c, (trimRight s).getLast? = some c → isBlank c = false := by
  intro c found
  rw [trimRight, List.getLast?_reverse] at found
  have stopped := List.head?_dropWhile_not isBlank s.reverse
  rw [found] at stopped
  simpa using stopped

private theorem join_words (word s : Text) :
    [' '].intercalate (wordsFrom word s) = word.reverse ++ collapseFrom word.isEmpty (trimRight s) := by
  induction s generalizing word with
  | nil => cases word <;> simp [wordsFrom, trimRight, List.intercalate]
  | cons c s ih =>
    rw [trimRight_cons]
    cases white : isBlank c
    · have longer := ih (c :: word)
      simp [wordsFrom, white, longer, collapseFrom_solid white]
    · have fresh := ih []
      rw [List.reverse_nil, List.nil_append, List.isEmpty_nil] at fresh
      cases word with
      | nil =>
        rw [wordsFrom, if_pos white, if_pos List.isEmpty_nil, fresh, List.isEmpty_nil]
        split
        next none => rw [none.1]; rfl
        next => rw [collapseFrom_lag white]; rfl
      | cons d word =>
        rw [wordsFrom, if_pos white, if_neg (by simp)]
        -- The words behind are none if nothing is left of the text behind.
        cases later : wordsFrom [] s with
        | nil =>
          rw [later] at fresh
          have none := collapseFrom_eq_nil fresh.symm (trimRight_last s)
          simp [none, List.intercalate_singleton]
        | cons next others =>
          have filled : trimRight s ≠ [] := by
            intro none
            rw [none, later, collapseFrom_nil] at fresh
            have member : next ∈ words s := by rw [words, later]; exact List.mem_cons_self
            obtain ⟨letter, letters, rfl⟩ := List.exists_cons_of_ne_nil (words_filled member).1
            cases others <;> simp [List.intercalate] at fresh
          rw [List.intercalate_cons_cons, ← later, fresh, if_neg fun both => filled both.1, List.isEmpty_cons]
          simp [collapseFrom, white]

theorem collapse_trimRight {c : Char} (white : isBlank c = true) (s : Text) :
    collapseFrom true (trimRight (c :: s)) = collapseFrom true (trimRight s) := by
  rw [trimRight_cons]
  split
  next none => rw [none.1]
  next => rw [collapseFrom_lag white]

theorem collapse_trim (s : Text) : collapse (trim s) = collapseFrom true (trimRight s) := by
  rw [← collapseFrom_head (trim_trimmed s).first true, trim]
  induction s with
  | nil => rfl
  | cons c s ih =>
    cases white : isBlank c
    · rw [trimLeft_eq_self (s := c :: s) fun d found => Option.some.inj found ▸ white]
    · rw [collapse_trimRight white, ← ih, trimLeft, trimLeft, List.dropWhile_cons, if_pos white]

/-- Words with one space between them are a trimmed text with every run of blanks as one. -/
theorem spaced_eq_collapse (s : Text) : spaced s = collapse (trim s) := by
  have joined := join_words [] s
  rw [List.reverse_nil, List.nil_append, List.isEmpty_nil] at joined
  rw [spaced, words, joined, collapse_trim]

theorem spaced_trim (s : Text) : spaced (trim s) = collapse (trim s) := by
  rw [spaced_eq_collapse, trim_eq_self (trim_trimmed s)]

end Spaced

end CascadeLens.Proofs.SpacedText
