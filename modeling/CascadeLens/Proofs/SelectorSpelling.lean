import CascadeLens.Proofs.SelectorLexemes

/-! Selectors as rows of tokens, each with its text. A part of a row is cut into the same tokens by itself,
and trimming a row changes nothing that counts. -/

namespace CascadeLens.Proofs.SelectorSpelling
open Text Selector TextShape SelectorLexing SelectorEscapes SelectorLexemes

/-- A token with its text and the blanks and comments in front of it. -/
abbrev Spelt := Token × Text

/-- The tokens of a text behind blanks and comments that are left over. -/
def speltFrom? (gap : Text) : Text → Option (List Spelt)
  | [] => some []
  | c :: rest =>
    match gapLength (c :: rest) with
    | extra + 1 => speltFrom? (gap ++ c :: rest.take extra) (rest.drop extra)
    | 0 =>
      match token? c rest with
      | none => none
      | some (token, extra) =>
        (speltFrom? [] (rest.drop extra)).map ((token, gap ++ c :: rest.take extra) :: ·)
termination_by s => s.length
decreasing_by all_goals simp only [List.length_cons, List.length_drop]; omega

/-- The tokens of a text with what each of them is written as. -/
def spelt? (s : Text) : Option (List Spelt) := speltFrom? [] s

theorem tokens_spelt (gap s : Text) : tokens? s = (speltFrom? gap s).map (·.map Prod.fst) := by
  fun_induction speltFrom? gap s with
  | case1 gap => simp [tokens?]
  | case2 gap c rest extra length ih => simp [tokens?, length, ih]
  | case3 gap c rest none read => simp [tokens?, none, read]
  | case4 gap c rest none token extra read ih =>
    simp [tokens?, none, read, ih, Function.comp_def]

/-- The characters of a row of tokens. -/
def spelling (row : List Spelt) : Text := row.flatMap Prod.snd

/-- A text is a row of tokens as they are written, with blanks in front of each and at the end. -/
inductive Lexed : Text → List Spelt → Prop
  | done {gap : Text} (room : Airy gap) : Lexed gap []
  | more {gap text rest : Text} {token : Token} {row : List Spelt} (room : Airy gap) (own : Lexeme rest text token)
      (later : Lexed rest row) : Lexed (gap ++ (text ++ rest)) ((token, gap ++ text) :: row)

section Rows

variable {s gap : Text} {row others : List Spelt}

theorem airy_nil : Airy [] := by simp [Airy]

theorem airy_append {first second : Text} : Airy (first ++ second) ↔ Airy first ∧ Airy second := List.forall_mem_append

theorem lexed_of_spelt (room : Airy gap) (clear : Clear s) (read : speltFrom? gap s = some row) : Lexed (gap ++ s) row := by
  fun_induction speltFrom? gap s generalizing row with
  | case1 gap =>
    obtain rfl := Option.some.inj read
    rw [List.append_nil]
    exact .done room
  | case2 gap c rest extra length ih =>
    have blanks := gap_airy (clear.part (List.take_prefix _ _).isInfix).bare
    rw [length, List.take_succ_cons] at blanks
    have later := ih (airy_append.mpr ⟨room, blanks⟩) (clear.tail.drop extra) read
    rwa [List.append_assoc, List.cons_append, List.take_append_drop] at later
  | case3 => cases read
  | case4 gap c rest none token extra found ih =>
    obtain ⟨others, inner, rfl⟩ := Option.map_eq_some_iff.mp read
    have later := ih airy_nil (clear.tail.drop extra) inner
    have whole : c :: rest = (c :: rest.take extra) ++ rest.drop extra := by rw [List.cons_append, List.take_append_drop]
    have bare : Bare (c :: rest.take extra) := (whole ▸ clear).left.bare
    conv => arg 1; rw [whole]
    exact .more room (lexeme_of_token (fun _ => bare) found) later

theorem Lexed.tokens (lexed : Lexed s row) (clear : Clear s) : tokens? s = some (row.map Prod.fst) := by
  induction lexed with
  | @done gap room =>
    have blanks := lexes_gap ⟨gap, room⟩ [] nofun
    rw [List.append_nil] at blanks
    rw [blanks]
    simp [tokens?]
  | @more gap text rest token row room own later ih =>
    obtain ⟨c, more, rfl, solid, slash, read⟩ := own.read clear.right.left.ascii
    have blanks := lexes_gap ⟨gap, room⟩ (c :: more ++ rest) fun d first => Option.some.inj first ▸ ⟨solid, slash⟩
    have onward := tokens_step ⟨solid, slash⟩ read
    rw [List.drop_left, ih clear.right.right] at onward
    rw [blanks, List.cons_append, onward]
    rfl

/-- The front of a row stands alone in its own text. -/
theorem lexed_front (lexed : Lexed s (row ++ others)) : Lexed (spelling row) row ∧ spelling row <+: s := by
  induction row generalizing s with
  | nil => exact ⟨.done airy_nil, List.nil_prefix⟩
  | cons spelt row ih =>
    cases lexed with
    | @more gap text rest token _ room own later =>
      obtain ⟨alone, shorter⟩ := ih later
      have whole : spelling ((token, gap ++ text) :: row) = gap ++ (text ++ spelling row) := by
        simp [spelling]
      rw [whole]
      refine ⟨.more room (own.truncate shorter) alone, ?_⟩
      exact (List.prefix_append_right_inj gap).mpr ((List.prefix_append_right_inj text).mpr shorter)

/-- So does its back in the rest of the text. -/
theorem lexed_back (lexed : Lexed s (row ++ others)) : ∃ rest, s = spelling row ++ rest ∧ Lexed rest others := by
  induction row generalizing s with
  | nil => exact ⟨s, rfl, lexed⟩
  | cons spelt row ih =>
    cases lexed with
    | @more gap text rest token _ room own later =>
      obtain ⟨rest, rfl, alone⟩ := ih later
      exact ⟨rest, by simp [spelling], alone⟩

theorem Lexed.text (lexed : Lexed s row) : ∃ gap, s = spelling row ++ gap ∧ ∀ c ∈ gap, isBlank c = true := by
  rw [← List.append_nil row] at lexed
  obtain ⟨gap, whole, done⟩ := lexed_back lexed
  cases done with
  | done room => exact ⟨gap, whole, fun c member => (room c member).1⟩

theorem Lexed.filled (lexed : Lexed s row) (clear : Clear s) (filled : row ≠ []) : s ≠ [] := by
  cases lexed with
  | done => exact absurd rfl filled
  | more room own later =>
    obtain ⟨c, more, rfl, -⟩ := own.read clear.right.left.ascii
    simp

theorem Alike.cons {tokens more : List Token} (alike : Alike tokens more) (token : Token) :
    Alike (token :: tokens) (token :: more) := by
  cases alike with
  | same => exact .same
  | @last front part other whole weight =>
    exact @Alike.last _ (token :: front) part other (congrArg (token :: ·) whole) weight

theorem lexed_trimRight (lexed : Lexed s row) (clear : Clear s) (filled : row ≠ []) :
    ∃ trimmed, Lexed (trimRight s) trimmed ∧ trimmed ≠ [] ∧ Alike (row.map Prod.fst) (trimmed.map Prod.fst) := by
  induction lexed with
  | done => exact absurd rfl filled
  | @more gap text rest token row room own later ih =>
    cases row with
    | nil =>
      cases later with
      | done white =>
        obtain ⟨short, other, own', shortened, alike⟩ := (own.truncate List.nil_prefix).shorten clear.right.left
        have left : short ≠ [] := by
          obtain ⟨c, more, rfl, -⟩ := own.read clear.right.left.ascii
          exact shortened.filled (List.cons_ne_nil c more)
        have cut : trimRight (gap ++ (text ++ rest)) = gap ++ (short ++ []) := by
          rw [← List.append_assoc, trimRight_before_blanks fun c member => (white c member).1, List.append_nil]
          exact (shortened.behind gap left).trimRight
        rw [cut]
        exact ⟨_, .more room own' (.done airy_nil), by simp, alike⟩
    | cons next row =>
      obtain ⟨trimmed, alone, some, alike⟩ := ih clear.right.right (List.cons_ne_nil next row)
      obtain ⟨after, whole, white⟩ := trimRight_spec rest
      have shorter : trimRight rest <+: rest := ⟨after, whole.symm⟩
      have left := alone.filled (clear.right.right.part shorter.isInfix) some
      rw [← List.append_assoc, trimRight_append left, List.append_assoc]
      exact ⟨_, .more room (own.truncate shorter) alone, by simp, Alike.cons alike token⟩

/-- Without the blanks around it a text consists of tokens that count for the same. -/
theorem lexed_trim (lexed : Lexed s row) (clear : Clear s) (filled : row ≠ []) :
    ∃ trimmed, Lexed (trim s) trimmed ∧ trimmed ≠ [] ∧ Alike (row.map Prod.fst) (trimmed.map Prod.fst) := by
  cases lexed with
  | done => exact absurd rfl filled
  | @more gap text rest token row room own later =>
    obtain ⟨c, more, rfl, solid, -⟩ := own.read clear.right.left.ascii
    have front : trimLeft (gap ++ (c :: more ++ rest)) = [] ++ (c :: more ++ rest) := by
      rw [trimLeft_behind_blanks fun d member => (room d member).1]
      exact trimLeft_eq_self fun d first => Option.some.inj first ▸ solid
    rw [trim, front]
    have alone : Lexed ([] ++ (c :: more ++ rest)) ((token, [] ++ c :: more) :: row) := .more airy_nil own later
    obtain ⟨trimmed, lexed, some, alike⟩ := lexed_trimRight alone clear.right (List.cons_ne_nil _ _)
    exact ⟨trimmed, lexed, some, alike⟩

end Rows

end CascadeLens.Proofs.SelectorSpelling
