import CascadeLens.Proofs.SelectorLexemes
import Mathlib.Data.List.Infix

/-! What becomes of names, gaps and arguments when another text is put behind the one they stand in. They keep their
lengths where what comes next goes on with none of them, but for a blank, which the escape that ends a name takes in. -/

namespace CascadeLens.Proofs.SelectorSeams
open Text Selector SelectorNames SelectorLexing SelectorEscapes SelectorLexemes

/-- Every comment that begins in a text ends in it. -/
def Enclosed (s : Text) : Prop := ∀ rest, '/' :: '*' :: rest <:+ s → ['*', '/'] <:+: rest

/-- No comment of a text is left open for another text behind to end it. -/
def Still (s t : Text) : Prop := ∀ rest, '/' :: '*' :: rest <:+ s → ['*', '/'] <:+: t → ['*', '/'] <:+: rest

/-- Text that goes on with none of the tokens before it. Its first character may be a blank, which the escape
that ends a name takes in, together with the name behind it. -/
structure Seam (t : Text) : Prop where
  ends : Ends t
  marks : ∀ c, t.head? = some c → c ≠ '/' ∧ c ≠ '*'

def Unspaced (t : Text) : Prop := ∀ c, t.head? = some c → isBlank c = false

section Names

variable {s t rest less name escape : Text} {c : Char}

theorem stops_apart (stop : stops c = true) : isLetter c = false ∧ c ≠ '\\' ∧ c ≠ '(' := by
  simp only [stops, Bool.and_eq_true, Bool.not_eq_true', bne_iff_ne, ne_eq] at stop
  obtain ⟨⟨⟨ascii, other⟩, escape⟩, opener⟩ := stop
  exact ⟨by simp [isLetter, ascii, other], escape, opener⟩

theorem nameLength_ends (ends : Ends t) : nameLength t = 0 := @nameLength_append [] t nofun ends

/-- An escape looks no further than the next character. -/
theorem escape_of_head (own : Escape rest escape) (same : less.head? = rest.head?) : Escape less escape := by
  cases own with
  | char other line => exact .char other line
  | code code ends solid => exact .code code (by rwa [same]) (by rwa [same])
  | spaced code white => exact .spaced code white

/-- Only the number of a character at the very end goes on, with a blank. -/
theorem escape_behind (own : Escape rest escape) :
    (∀ t, Ends t → Escape (rest ++ t) escape) ∨
      rest = [] ∧ (∀ t, Ends t → Unspaced t → Escape t escape) ∧
        ∀ c more, isBlank c = true → Escape more (escape ++ [c]) := by
  cases rest with
  | cons d rest => exact Or.inl fun t _ => escape_of_head own rfl
  | nil =>
    cases own with
    | char other line => exact Or.inl fun t _ => .char other line
    | spaced code white => exact Or.inl fun t _ => .spaced code white
    | code code =>
      refine Or.inr ⟨rfl, fun t ends solid => .code code (Or.inr fun c first => ?_) solid,
        fun c more white => .spaced code white⟩
      by_contra hex
      have letter := letter_of_hex (by simpa using hex)
      have other := (stops_apart (ends c first)).1
      simp [isLetter, letter] at other

/-- Where a name has ended, a text behind does not go on with it. -/
private theorem ended_behind (none : nameLength rest = 0) (whole : rest ≠ ['\\']) (ends : Ends t) :
    nameLength (rest ++ t) = 0 := by
  cases rest with
  | nil => exact nameLength_ends ends
  | cons c more =>
    by_cases letter : isLetter c = true
    · rw [nameLength_letter letter] at none
      cases none
    by_cases escape : c = '\\'
    · subst escape
      cases more with
      | nil => exact absurd rfl whole
      | cons d more =>
        have stopped : escapeLength (d :: more) = 0 := by
          cases length : escapeLength (d :: more) with
          | zero => rfl
          | succ extra =>
            rw [nameLength_escape length] at none
            cases none
        have line : d = '\n' := escapeLength_eq_zero.mp stopped d rfl
        have stopped' : escapeLength (d :: (more ++ t)) = 0 := escapeLength_eq_zero.mpr (by simpa using line)
        rw [List.cons_append, List.cons_append, nameLength.eq_def]
        simp [stopped']
    · simp only [isLetter] at letter
      simp [nameLength.eq_def, escape, letter]

/-- A name at the end of a text whose last escape takes in a blank behind it, and so the name behind that. -/
structure Open (judged : Text → Text → Prop) (name : Text) : Prop where
  escape : '\\' ∈ name
  kept : ∀ t, Ends t → Unspaced t → judged t name
  grown : ∀ c word more, isBlank c = true → Name more word → judged more (name ++ c :: word)

/-- A name before a text that goes on with no name: it stays, or it is open at its end. -/
theorem name_behind (own : Name rest name) (whole : rest ≠ ['\\']) :
    (∀ t, Ends t → Name (rest ++ t) name) ∨ rest = [] ∧ Open Name name := by
  induction own with
  | ended none => exact Or.inl fun t ends => .ended (ended_behind none whole ends)
  | letter letter more ih =>
    rcases ih with stays | ⟨last, inside⟩
    · exact Or.inl fun t ends => .letter letter (stays t ends)
    · exact Or.inr ⟨last, List.mem_cons_of_mem _ inside.escape, fun t ends solid => .letter letter (inside.kept t ends solid),
        fun c word more white own => .letter letter (inside.grown c word more white own)⟩
  | @escaped escape name own more ih =>
    rcases ih with stays | ⟨last, inside⟩
    · rcases escape_behind own with kept | ⟨last, kept, taken⟩
      · exact Or.inl fun t ends => .escaped (by rw [← List.append_assoc]; exact kept t ends) (stays t ends)
      · obtain ⟨rfl, rfl⟩ := List.append_eq_nil_iff.mp last
        refine Or.inr ⟨rfl, List.mem_cons_self, fun t ends solid => .escaped (kept t ends solid) (stays t ends), ?_⟩
        intro c word more white own
        have whole := Name.escaped (taken c (word ++ more) white) own
        simpa using whole
    · subst last
      obtain ⟨d, name, rfl⟩ := List.exists_cons_of_ne_nil (List.ne_nil_of_mem inside.escape)
      refine Or.inr ⟨rfl, List.mem_cons_self, fun t ends solid => ?_, fun c word more white later => ?_⟩
      · exact .escaped (escape_of_head own rfl) (inside.kept t ends solid)
      · have kept : Escape ((d :: name ++ c :: word) ++ more) escape := escape_of_head own rfl
        have whole := Name.escaped kept (inside.grown c word more white later)
        simpa using whole

theorem word_behind (word : Word rest name) (whole : rest ≠ ['\\']) :
    (∀ t, Ends t → Word (rest ++ t) name) ∨ rest = [] ∧ Open Word name := by
  rcases name_behind word.own whole with stays | ⟨last, inside⟩
  · exact Or.inl fun t ends => ⟨stays t ends, word.leading⟩
  · exact Or.inr ⟨last, inside.escape, fun t ends solid => ⟨inside.kept t ends solid, word.leading⟩,
      fun c later more white own => ⟨inside.grown c later more white own, leads_append word.leading _⟩⟩

/-- A name that takes up a whole text takes in a blank behind it. -/
structure Taking (length : Text → Nat) (s : Text) : Prop where
  all : length s = s.length
  escape : '\\' ∈ s
  kept : ∀ t, Ends t → Unspaced t → length (s ++ t) = length s
  grown : ∀ c more, isBlank c = true → length (s ++ c :: more) = length s + 1 + nameLength more

/-- The length of a name with a text behind. -/
def Grown (length : Text → Nat) (s : Text) : Prop :=
  length s ≤ s.length ∧ ((∀ t, Ends t → length (s ++ t) = length s) ∨ Taking length s)

theorem Grown.filled {length : Text → Nat} (grown : Grown length s) (filled : length s ≠ 0) (ends : Ends t) :
    length (s ++ t) ≠ 0 := by
  obtain ⟨-, stays | taking⟩ := grown
  · rwa [stays t ends]
  · by_cases white : ∃ c more, t = c :: more ∧ isBlank c = true
    · obtain ⟨c, more, rfl, white⟩ := white
      rw [taking.grown c more white]
      omega
    · have solid : Unspaced t := by
        intro c first
        obtain ⟨more, rfl⟩ := List.head?_eq_some_iff.mp first
        by_contra blank
        exact white ⟨c, more, rfl, by simpa using blank⟩
      rwa [taking.kept t ends solid]

private theorem length_behind {length : Text → Nat} {judged : Text → Text → Prop}
    (measured : ∀ {rest name}, judged rest name → length (name ++ rest) = name.length)
    (own : judged (s.drop (length s)) (s.take (length s)))
    (onward : (∀ t, Ends t → judged (s.drop (length s) ++ t) (s.take (length s))) ∨
      s.drop (length s) = [] ∧ Open judged (s.take (length s))) :
    Grown length s := by
  have inside : length s ≤ s.length := by
    have size := measured own
    rw [List.take_append_drop, List.length_take] at size
    omega
  refine ⟨inside, ?_⟩
  rcases onward with stays | ⟨last, opened⟩
  · refine Or.inl fun t ends => ?_
    have size := measured (stays t ends)
    rwa [← List.append_assoc, List.take_append_drop, List.length_take_of_le inside] at size
  · have all : length s = s.length := Nat.le_antisymm inside (List.drop_eq_nil_iff.mp last)
    rw [List.take_of_length_le all.ge] at opened
    refine Or.inr ⟨all, opened.escape, fun t ends solid => ?_, fun c more white => ?_⟩
    · rw [measured (opened.kept t ends solid), all]
    · have short : nameLength more ≤ more.length := by
        have size := (name_of_length more).length
        rw [List.take_append_drop, List.length_take] at size
        omega
      have size := measured (opened.grown c _ _ white (name_of_length more))
      rw [List.append_assoc, List.cons_append, List.take_append_drop, List.length_append, List.length_cons,
        List.length_take_of_le short] at size
      omega

theorem nameLength_behind (whole : s.drop (nameLength s) ≠ ['\\']) : Grown nameLength s :=
  length_behind Name.length (name_of_length s) (name_behind (name_of_length s) whole)

theorem identifierLength_behind (filled : identifierLength s ≠ 0) (whole : s.drop (identifierLength s) ≠ ['\\']) :
    Grown identifierLength s :=
  length_behind Word.length (word_of_length filled) (word_behind (word_of_length filled) whole)

end Names

section Comments

variable {s t rest : Text} {c : Char} {length : Nat}

theorem Enclosed.drop (enclosed : Enclosed s) (count : Nat) : Enclosed (s.drop count) :=
  fun rest inside => enclosed rest (inside.trans (List.drop_suffix count s))

theorem Enclosed.tail (enclosed : Enclosed (c :: s)) : Enclosed s := enclosed.drop 1

/-- Whether every comment of a text ends can be told from its ends. -/
theorem enclosed_iff : Enclosed s ↔ ∀ tail ∈ s.tails, ['/', '*'] <+: tail → ['*', '/'] <:+: tail.drop 2 := by
  constructor
  · rintro enclosed tail member ⟨rest, rfl⟩
    exact enclosed rest ((List.mem_tails _ _).mp member)
  · intro all rest inside
    exact all _ ((List.mem_tails _ _).mpr inside) (List.prefix_append ['/', '*'] rest)

instance (s : Text) : Decidable (Enclosed s) := decidable_of_iff _ enclosed_iff.symm

theorem commentLength_some (closed : ['*', '/'] <:+: s) : ∃ length, commentLength? s = some length := by
  fun_induction commentLength? s with
  | case1 => exact absurd closed (by decide)
  | case2 => exact ⟨2, rfl⟩
  | case3 c rest apart ih =>
    have later : ['*', '/'] <:+: rest := by
      rcases List.infix_cons_iff.mp closed with ⟨more, whole⟩ | later
      · obtain ⟨rfl, rfl⟩ := List.cons.inj whole
        exact absurd rfl (apart more rfl)
      · exact later
    obtain ⟨length, found⟩ := ih later
    exact ⟨length + 1, by simp [found]⟩

theorem commentLength_behind (found : commentLength? s = some length) (t : Text) :
    length ≤ s.length ∧ commentLength? (s ++ t) = some length := by
  fun_induction commentLength? s generalizing length with
  | case1 => cases found
  | case2 rest =>
    obtain rfl := Option.some.inj found
    exact ⟨by simp, rfl⟩
  | case3 c rest apart ih =>
    obtain ⟨inner, later, rfl⟩ := Option.map_eq_some_iff.mp found
    obtain ⟨inside, onward⟩ := ih later
    refine ⟨Nat.succ_le_succ inside, ?_⟩
    have still : ∀ more, c = '*' → rest ++ t = '/' :: more → False := by
      intro more star slash
      cases rest with
      | nil => cases later
      | cons d rest =>
        obtain ⟨rfl, -⟩ := List.cons.inj slash
        exact apart rest star rfl
    rw [List.cons_append, commentLength?.eq_3 _ _ still, onward]
    rfl

theorem closed_of_commentLength (found : commentLength? s = some length) : ['*', '/'] <:+: s := by
  fun_induction commentLength? s generalizing length with
  | case1 => cases found
  | case2 rest => exact (List.prefix_append ['*', '/'] rest).isInfix
  | case3 c rest apart ih =>
    obtain ⟨inner, later, rfl⟩ := Option.map_eq_some_iff.mp found
    exact List.infix_cons (ih later)

/-- The end of a comment does not stand across the beginning of a seam. -/
theorem closed_append (seam : Seam t) : ['*', '/'] <:+: s ++ t ↔ ['*', '/'] <:+: s ∨ ['*', '/'] <:+: t := by
  constructor
  · intro inside
    induction s with
    | nil => exact Or.inr inside
    | cons c s ih =>
      rcases List.infix_cons_iff.mp inside with ⟨more, first⟩ | later
      · obtain ⟨rfl, second⟩ := List.cons.inj first
        cases s with
        | nil =>
          have first : t.head? = some '/' := by
            rw [show t = '/' :: more from second.symm]
            rfl
          exact absurd rfl (seam.marks '/' first).1
        | cons d s =>
          obtain ⟨rfl, -⟩ := List.cons.inj second
          exact Or.inl (List.prefix_append ['*', '/'] s).isInfix
      · exact (ih later).imp_left List.infix_cons
  · rintro (inside | inside)
    · exact inside.trans (List.prefix_append s t).isInfix
    · exact inside.trans (List.suffix_append s t).isInfix

theorem commentRest_some (found : commentRest? rest = some length) (t : Text) :
    length ≤ rest.length ∧ commentRest? (rest ++ t) = some length := by
  unfold commentRest? at found
  split at found
  next more =>
    obtain ⟨inner, later, rfl⟩ := Option.map_eq_some_iff.mp found
    obtain ⟨inside, onward⟩ := commentLength_behind later t
    exact ⟨Nat.succ_le_succ inside, by rw [List.cons_append, commentRest?, onward]; rfl⟩
  next => cases found

/-- What begins no comment does not begin one with a text behind that ends none. -/
theorem commentRest_none (seam : Seam t) (begun : commentRest? rest = none)
    (still : ∀ more, rest = '*' :: more → ['*', '/'] <:+: t → ['*', '/'] <:+: more) : commentRest? (rest ++ t) = none := by
  cases rest with
  | nil =>
    rw [List.nil_append]
    unfold commentRest?
    split
    next => exact absurd rfl (seam.marks '*' rfl).2
    next => rfl
  | cons d more =>
    by_cases star : d = '*'
    · subst star
      have open' : ¬ ['*', '/'] <:+: more := by
        intro closed
        obtain ⟨length, found⟩ := commentLength_some closed
        simp [commentRest?, found] at begun
      have other : ¬ ['*', '/'] <:+: more ++ t := fun closed =>
        open' (((closed_append seam).mp closed).elim id (still more rfl))
      rw [List.cons_append, commentRest?]
      cases found : commentLength? (more ++ t) with
      | none => rfl
      | some length => exact absurd (closed_of_commentLength found) other
    · rw [List.cons_append]
      unfold commentRest?
      split
      next same => exact absurd (List.cons.inj same).1 star
      next => rfl

end Comments

section Gaps

variable {s t : Text}

theorem gapLength_blanks {c : Char} (white : isBlank c = true ∧ isAscii c = true) (rest : Text) :
    gapLength (c :: rest) =
      1 + (rest.takeWhile isBlank).length + gapLength (rest.drop (rest.takeWhile isBlank).length) := by
  rw [gapLength.eq_def]
  simp [white]

theorem gapLength_comment {rest : Text} {length : Nat} (found : commentRest? rest = some length) :
    gapLength ('/' :: rest) = length + 1 + gapLength (rest.drop length) := by
  have begun : (if ('/' == '/') = true then commentRest? rest else none) = some length := found
  rw [gapLength.eq_def]
  simp only [begun, show (isBlank '/' && isAscii '/') = false from rfl]
  rfl

/-- Blanks in front of a gap belong to it, if the first is an ASCII one. -/
theorem gapLength_run (ascii : ∀ c, t.head? = some c → isBlank c = true → isAscii c = true) :
    gapLength t = (t.takeWhile isBlank).length + gapLength (t.drop (t.takeWhile isBlank).length) := by
  cases t with
  | nil => simp
  | cons c rest =>
    by_cases white : isBlank c = true
    · rw [gapLength_blanks ⟨white, ascii c rfl white⟩, List.takeWhile_cons, if_pos white, List.length_cons,
        List.drop_succ_cons]
      omega
    · simp [white]

theorem ends_ascii (ends : Ends t) : ∀ c, t.head? = some c → isBlank c = true → isAscii c = true := by
  intro c first _
  have stop := ends c first
  simp only [stops, Bool.and_eq_true] at stop
  exact stop.1.1.1

/-- Behind a gap nothing is left to be left out. -/
theorem gapLength_settled (s : Text) : gapLength (s.drop (gapLength s)) = 0 := by
  fun_induction gapLength s with
  | case1 => rw [List.drop_nil, gapLength.eq_def]
  | case2 c rest white blanks ih =>
    rwa [Nat.add_assoc, Nat.add_comm 1, List.drop_succ_cons, ← List.drop_drop]
  | case3 c rest other length comment ih =>
    rwa [Nat.add_right_comm, List.drop_succ_cons, ← List.drop_drop]
  | case4 c rest other comment =>
    have none : (if (c == '/') = true then commentRest? rest else none) = none := by simpa using comment
    rw [List.drop_zero, gapLength.eq_def]
    simp only [other, none]
    simp

/-- A gap grows only where it ends a text, by the gap behind. -/
theorem gapLength_behind (solid : (s.drop (gapLength s)).head? ≠ some '/') (seam : Seam t) :
    gapLength s ≤ s.length ∧
      gapLength (s ++ t) = gapLength s + if s.drop (gapLength s) = [] then gapLength t else 0 := by
  fun_induction gapLength s with
  | case1 => simp
  | case2 c rest white blanks ih =>
    rw [Bool.and_eq_true] at white
    have behind : (c :: rest).drop (1 + blanks + gapLength (rest.drop blanks)) =
        (rest.drop blanks).drop (gapLength (rest.drop blanks)) := by
      rw [List.drop_drop, Nat.add_assoc, Nat.add_comm 1, List.drop_succ_cons]
    rw [behind] at solid ⊢
    obtain ⟨inside, onward⟩ := ih solid
    have short : blanks ≤ rest.length := (List.takeWhile_prefix _).length_le
    rw [List.length_drop] at inside
    refine ⟨by rw [List.length_cons]; omega, ?_⟩
    rw [List.cons_append, gapLength_blanks white]
    by_cases all : blanks = rest.length
    · -- The blanks at the end run on into those behind.
      have nothing : gapLength [] = 0 := by rw [gapLength.eq_def]
      have last : rest.drop blanks = [] := List.drop_eq_nil_iff.mpr all.ge
      rw [List.takeWhile_append, if_pos all, List.length_append, ← List.drop_drop, List.drop_left, last, all,
        gapLength_run (ends_ascii seam.ends), nothing, List.drop_nil, if_pos rfl]
      omega
    · rw [List.takeWhile_append, if_neg all, List.drop_append_of_le_length short, onward]
      omega
  | case3 c rest other length comment ih =>
    split at comment
    next slash =>
      obtain rfl : c = '/' := by simpa using slash
      have behind : ('/' :: rest).drop (length + 1 + gapLength (rest.drop length)) =
          (rest.drop length).drop (gapLength (rest.drop length)) := by
        rw [List.drop_drop, Nat.add_right_comm, List.drop_succ_cons]
      rw [behind] at solid ⊢
      obtain ⟨short, same⟩ := commentRest_some comment t
      obtain ⟨fits, onward⟩ := ih solid
      rw [List.length_drop] at fits
      refine ⟨by rw [List.length_cons]; omega, ?_⟩
      rw [List.cons_append, gapLength_comment same, List.drop_append_of_le_length short, onward]
      omega
    next => cases comment
  | case4 c rest other comment =>
    have slash : (c == '/') = false := by simpa using solid
    refine ⟨Nat.zero_le _, ?_⟩
    rw [List.cons_append, gapLength.eq_def]
    simp [other, slash]

end Gaps

section Contents

variable {s : Text} {length : Nat}

theorem argumentsLength_filled {depth : Nat} {fresh : Bool} (s : Text) : argumentsLength? depth fresh s ≠ some 0 := by
  fun_cases argumentsLength? depth fresh s <;> simp_all

theorem Still.part {s t part : Text} (still : Still s t) (behind : part <:+ s) : Still part t :=
  fun rest inside => still rest (inside.trans behind)

/-- Arguments are closed where they are whatever stands behind them, if no comment in them or in the text is left open. -/
theorem argumentsLength_behind {depth : Nat} {fresh : Bool} (found : argumentsLength? depth fresh s = some length) {t : Text}
    (closed : Enclosed s ∨ Still (s.take length) t) (seam : Seam t) :
    length ≤ s.length ∧ argumentsLength? depth fresh (s ++ t) = some length := by
  have later : ∀ {c : Char} {rest : Text} {count inner : Nat},
      Enclosed (c :: rest) ∨ Still ((c :: rest).take (inner + (count + 1))) t →
      Enclosed (rest.drop count) ∨ Still ((rest.drop count).take inner) t := by
    intro c rest count inner
    refine Or.imp (fun enclosed => enclosed.tail.drop count) fun still => still.part ?_
    rw [List.take_drop, ← Nat.add_assoc, List.take_succ_cons, Nat.add_comm inner]
    exact (List.drop_suffix count _).trans (List.suffix_cons c _)
  fun_induction argumentsLength? depth fresh s generalizing length with
  | case1 => cases found
  | case2 depth fresh c rest opener ih =>
    obtain ⟨inner, deeper, rfl⟩ := Option.map_eq_some_iff.mp found
    obtain ⟨inside, onward⟩ := ih deeper (@later c rest 0 inner closed)
    refine ⟨Nat.succ_le_succ inside, ?_⟩
    rw [List.cons_append, argumentsLength?.eq_def]
    simp [opener, onward]
  | case3 fresh c rest opener closer =>
    obtain rfl := Option.some.inj found
    refine ⟨by simp, ?_⟩
    rw [List.cons_append, argumentsLength?.eq_def]
    simp [opener, closer]
  | case4 fresh c rest opener closer depth ih =>
    obtain ⟨inner, deeper, rfl⟩ := Option.map_eq_some_iff.mp found
    obtain ⟨inside, onward⟩ := ih deeper (@later c rest 0 inner closed)
    refine ⟨Nat.succ_le_succ inside, ?_⟩
    rw [List.cons_append, argumentsLength?.eq_def]
    simp [opener, closer, onward]
  | case5 depth fresh c rest opener closer hidden comment ih =>
    obtain ⟨inner, deeper, rfl⟩ := Option.map_eq_some_iff.mp found
    split at comment
    next begun =>
      obtain ⟨rfl, rfl⟩ : fresh = true ∧ c = '/' := by simpa using begun
      obtain ⟨short, same⟩ := commentRest_some comment t
      obtain ⟨inside, onward⟩ := ih deeper (later closed)
      rw [List.length_drop] at inside
      refine ⟨by rw [List.length_cons]; omega, ?_⟩
      rw [List.cons_append, argumentsLength?.eq_def]
      simp only [opener, closer]
      simp only [beq_self_eq_true, Bool.and_self, if_true, same, List.drop_append_of_le_length short, onward]
      rfl
    next => cases comment
  | case6 depth fresh c rest opener closer comment ih =>
    obtain ⟨inner, deeper, rfl⟩ := Option.map_eq_some_iff.mp found
    obtain ⟨inside, onward⟩ := ih deeper (@later c rest 0 inner closed)
    -- A slash that begins no comment in the text must not begin one that ends behind it.
    have none : (if (fresh && c == '/') = true then commentRest? (rest ++ t) else none) = none := by
      split
      next slash =>
        obtain ⟨rfl, rfl⟩ : fresh = true ∧ c = '/' := by simpa using slash
        have open' : commentRest? rest = none := by simpa using comment
        refine commentRest_none seam open' ?_
        rintro more rfl ended
        rcases closed with enclosed | still
        · exact enclosed more (List.suffix_refl _)
        · obtain ⟨count, rfl⟩ : ∃ count, inner = count + 1 := by
            cases inner with
            | zero => exact absurd deeper (argumentsLength_filled _)
            | succ count => exact ⟨count, rfl⟩
          exact (still (more.take count) (List.suffix_refl _) ended).trans (List.take_prefix count more).isInfix
      next => rfl
    refine ⟨Nat.succ_le_succ inside, ?_⟩
    rw [List.cons_append, argumentsLength?.eq_def]
    simp only [none]
    simp [opener, closer, onward]

theorem argumentsLength_inside {depth : Nat} {fresh : Bool} (found : argumentsLength? depth fresh s = some length) :
    length ≤ s.length := by
  have open' : ¬ ['*', '/'] <:+: [] := by decide
  have still : Still (s.take length) [] := fun _ _ ended => absurd ended open'
  exact (argumentsLength_behind found (Or.inr still) ⟨nofun, nofun⟩).1

theorem attributeLength_behind (found : attributeLength? s = some length) (t : Text) :
    length ≤ s.length ∧ attributeLength? (s ++ t) = some length := by
  obtain ⟨content, whole, rfl, inert⟩ := bracket_of_length found
  have closed : attributeLength? (']' :: (s.drop (content.length + 1) ++ t)) = some 1 := by
    rw [attributeLength?.eq_def]
    rfl
  constructor
  · rw [whole, List.length_append, List.length_cons]
    omega
  · conv_lhs => rw [whole]
    rw [List.append_assoc, List.cons_append, inert, closed, Nat.add_comm content.length]
    rfl

end Contents

end CascadeLens.Proofs.SelectorSeams
