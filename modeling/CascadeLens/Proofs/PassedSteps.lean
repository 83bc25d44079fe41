import CascadeLens.Proofs.PassedBlocks

/-! One character of a block that is read beside one that is passed over: in plain text, in a string, an escape or a
comment, and in an interpolation, which only one of the two readers knows. -/

namespace CascadeLens.Proofs.PassedSteps
open Text SheetSteps SheetSimulation SheetSeam PassedBlocks

section Steps

variable {lineComments : Bool} {reader passing : SheetReader} {hidden depth parens : Nat} {rest : Text} {c : Char}

theorem even_noted (reader : SheetReader) (hidden : Nat) (c : Char) (rest : Text) :
    evenAt (noting reader c) hidden c rest = evenAt reader hidden c rest ∧
      hiddenBehind (noting reader c) hidden c = hiddenBehind reader hidden c := by
  have kind : (reader.level.begin reader.here c).kind = reader.level.kind := (begin_same _ _ _).1
  have parens : (reader.level.begin reader.here c).parens = reader.level.parens := begin_parens _ _ _
  have passed : (reader.level.begin reader.here c).isPassed = reader.level.isPassed := by simp only [Level.isPassed, kind]
  constructor
  · simp only [evenAt, noting, kind, parens]
  · simp only [hiddenBehind, noting, passed, parens]

theorem even_passed (plain : reader.mode = .plain) {inner : Nat} {keep : Option AtRule} (kind : reader.level.kind = .passed inner keep)
    (fair : evenAt reader hidden c rest = true) (closer : c = '\x7d') : inner ≠ 0 ∨ reader.level.parens = 0 := by
  simpa [evenAt, plain, kind, closer] using fair

theorem even_read (plain : reader.mode = .plain) (read : reader.level.isPassed = false) (fair : evenAt reader hidden c rest = true) :
    (c = '\x7d' → reader.level.parens = 0 ∨ hidden ≠ 0) ∧ (c = ')' → hidden = 0 ∨ reader.level.parens ≠ 1) ∧
      (c = '#' → rest.head? = some '\x7b' → tame 0 0 none rest = true) := by
  unfold evenAt at fair
  unfold Level.isPassed at read
  split at fair
  next depth keep kind => simp [kind] at read
  next =>
    simp only [plain, bne_self_eq_false, Bool.false_or, Bool.and_eq_true, Bool.or_eq_true, bne_iff_ne, beq_iff_eq] at fair
    obtain ⟨⟨closing, balance⟩, settled⟩ := fair
    refine ⟨?_, ?_, ?_⟩
    · rintro rfl
      simpa using closing
    · rintro rfl
      simpa using balance
    · rintro rfl ahead
      simpa [ahead] using settled

private theorem quote_quiet (mark : isQuote c = true) : c ≠ '\x7b' ∧ c ≠ '\x7d' := by
  constructor <;> rintro rfl <;> cases mark

theorem readPlain_goes (lineComments : Bool) (beside : Beside reader passing hidden 0 0) (plain : reader.mode = .plain)
    (plain' : passing.mode = .plain) (fair : evenAt reader hidden c rest = true) :
    Goes reader passing (hiddenBehind reader hidden c) rest (reader.readPlain lineComments c rest.head?)
      (passing.readPlain lineComments c rest.head?) := by
  have noted := beside.noting c
  obtain ⟨same, same'⟩ := even_noted reader hidden c rest
  obtain ⟨rule, named, known⟩ := noted.counted.kind
  have known' : (passing.level.begin passing.here c).kind = .passed (bracesOf (noting reader c) + hidden) (some rule) := known
  have level : passing.level.parens = reader.level.parens := beside.parens
  have plainly : (noting reader c).mode = .plain := plain
  have modes := @modes_plain (fun _ _ => True) (noting reader c).mode (noting passing c).mode plain plain'
  rw [← same] at fair
  -- What the first block passes over in any case is passed over by both.
  have passed : ∀ {inner keep}, (noting reader c).level.kind = .passed inner keep →
      Goes reader passing (hiddenBehind reader hidden c) rest (.ok ((noting reader c).passOver inner keep c))
        (.ok ((noting passing c).passOver (bracesOf (noting reader c) + hidden) (some rule) c)) := by
    intro inner keep kind
    have inside : (noting reader c).level.isPassed = true := by simp [Level.isPassed, kind]
    obtain rfl : hidden = 0 := noted.held.resolve_right fun held => by simp [inside] at held
    have none : hiddenBehind (noting reader c) 0 c = 0 := by simp [hiddenBehind, inside]
    rw [← same', none]
    exact Or.inl (passOver_abreast noted kind modes named (even_passed plainly kind fair))
  unfold SheetReader.readPlain
  rw [level]
  split_ifs with comment line mark escape hash
  · obtain ⟨rfl, -⟩ : c = '/' ∧ _ := by simpa using comment
    rw [hidden_quiet (by decide)]
    exact Or.inl (.same (.commentMark trivial) (beside.keep ' ' ' ' _ _))
  · obtain ⟨⟨⟨rfl, -⟩, -⟩, -⟩ : ((c = '/' ∧ _) ∧ _) ∧ _ := by simpa using line
    rw [hidden_quiet (by decide)]
    exact Or.inl (.same .lineComment (beside.turn _ _))
  · rw [hidden_quiet (quote_quiet mark)]
    exact Or.inl (.same (.string c trivial) (noted.keep c c _ _))
  · obtain rfl := beq_iff_eq.mp escape
    rw [hidden_quiet (by decide)]
    exact Or.inl (.same .escape (noted.keep _ _ _ _))
  · dsimp only
    rw [known']
    split
    next inner keep kind => exact passed kind
    next other =>
      have hash : c = '#' ∧ rest.head? = some '\x7b' := by simpa using hash
      have read : (noting reader c).level.isPassed = false := read_of_other other
      obtain ⟨-, -, settled⟩ := even_read plainly read fair
      have tamed := settled hash.1 hash.2
      obtain ⟨rfl, -⟩ := hash
      rw [hidden_quiet (by decide)]
      have onward := @Beside.stay (noting reader '#') (noting passing '#') hidden 0 0 noted ((noting reader '#').level.keep '#')
        (noting passing '#').level rfl rfl rfl rfl noted.parens noted.inside (.interpolation 0 reader.here) passing.mode
      exact Or.inl (.bare rfl plain' onward tamed)
  · dsimp only
    rw [known']
    split
    next inner keep kind => exact passed kind
    next other =>
      have read : (noting reader c).level.isPassed = false := read_of_other other
      obtain ⟨closing, balance, -⟩ := even_read plainly read fair
      rw [← same']
      exact takeIn_goes noted read plain plain' named closing balance

/-- The mode behind a character of an interpolation. -/
def interpolated (depth : Nat) (start : Place) (c : Char) : ReadMode :=
  if c == '\x7b' then .interpolation (depth + 1) start
  else if c == '\x7d' && depth ≤ 1 then .plain
  else if c == '\x7d' then .interpolation (depth - 1) start
  else .interpolation depth start

theorem read_interpolation {depth : Nat} {start : Place} (mode : reader.mode = .interpolation depth start) (next : Option Char) :
    reader.read lineComments c next =
      .ok { reader with level := reader.level.keep c, mode := interpolated depth start c } := by
  unfold SheetReader.read interpolated
  rw [mode]
  dsimp only
  split_ifs <;> rfl

theorem readPlain_passed {depth : Nat} {keep : Option AtRule} {next : Option Char}
    (kind : (noting passing c).level.kind = .passed depth keep) (bare : isQuote c = false ∧ c ≠ '\\')
    (quiet : c = '/' → next ≠ some '*' ∧ next ≠ some '/') :
    passing.readPlain lineComments c next = .ok ((noting passing c).passOver depth keep c) := by
  have known : (passing.level.begin passing.here c).kind = .passed depth keep := kind
  have starless : (c == '/' && next == some '*') = false := by
    by_cases slash : c = '/'
    · simp [(quiet slash).1]
    · simp [slash]
  have slashless : (c == '/' && next == some '/') = false := by
    by_cases slash : c = '/'
    · simp [(quiet slash).2]
    · simp [slash]
  simp [SheetReader.readPlain, starless, slashless, bare.1, bare.2, known, noting]

private theorem interpolated_within {depth : Nat} {start : Place} (bare : c ≠ '\x7b' ∧ c ≠ '\x7d') :
    interpolated depth start c = .interpolation depth start := by
  simp [interpolated, bare]

/-- In an interpolation what is open on the other side is counted along. -/
theorem bare_goes {depth parens : Nat} {start : Place} (mode : reader.mode = .interpolation depth start)
    (plain' : passing.mode = .plain) (beside : Beside reader passing hidden depth parens)
    (tamed : tame depth parens none (c :: rest) = true) :
    Goes reader passing hidden rest (reader.read lineComments c rest.head?) (passing.readPlain lineComments c rest.head?) := by
  have begun : (noting passing c).level.parens = reader.level.parens + parens := (begin_parens _ _ _).trans beside.parens
  have noted : Beside reader (noting passing c) hidden depth parens :=
    @Beside.stay reader passing hidden depth parens beside reader.level _ rfl rfl (begin_same _ _ _).1 (noted_start _ _ _) begun
      beside.inside reader.mode passing.mode
  obtain ⟨rule, named, known⟩ := noted.counted.kind
  have on : ∀ {level' : Level} {depth' parens' : Nat} (mode : ReadMode),
      level'.kind = .passed (bracesOf reader + hidden + depth') (some rule) → level'.start = (noting passing c).level.start →
      level'.parens = reader.level.parens + parens' →
      Beside { reader with level := reader.level.keep c, mode } { noting passing c with level := level' } hidden depth' parens' :=
    fun {level' depth' parens'} mode kind begins same =>
      @Beside.change reader (noting passing c) hidden depth parens noted hidden depth' parens' (reader.level.keep c) level' rfl rfl
        rule named kind begins same noted.held mode passing.mode
  rw [read_interpolation mode]
  unfold tame at tamed
  dsimp only at tamed
  by_cases mark : isQuote c = true
  · have slash : c ≠ '/' := by
      rintro rfl
      cases mark
    have quoted : passing.readPlain lineComments c rest.head? =
        .ok { noting passing c with level := (noting passing c).level.keep c, mode := .string c passing.here } := by
      simp [SheetReader.readPlain, slash, mark, noting]
    rw [if_pos mark] at tamed
    rw [quoted, interpolated_within (quote_quiet mark)]
    exact Or.inl (.quoted rfl mark rfl (noted.keep c c _ _) tamed)
  rw [if_neg mark] at tamed
  split at tamed
  next => cases tamed
  next calm =>
    simp only [Bool.or_eq_true, beq_iff_eq, Bool.and_eq_true, not_or, not_and] at calm
    rw [readPlain_passed known ⟨by simpa using mark, calm.1⟩ calm.2]
    by_cases opens : c = '('
    · subst opens
      have more : (noting passing '(').level.parens + 1 = reader.level.parens + (parens + 1) := by rw [begun, Nat.add_assoc]
      exact Or.inl (.bare rfl plain' (on _ known rfl more) tamed)
    by_cases closes : c = ')'
    · subst closes
      have inside : parens ≠ 0 ∧ tame depth (parens - 1) none rest = true := by simpa using tamed
      have less : (noting passing ')').level.parens - 1 = reader.level.parens + (parens - 1) := by
        rw [begun, Nat.add_sub_assoc (Nat.one_le_iff_ne_zero.mpr inside.1)]
      exact Or.inl (.bare rfl plain' (on _ known rfl less) inside.2)
    by_cases opener : c = '\x7b'
    · subst opener
      exact Or.inl (.bare rfl plain' (on _ rfl rfl begun) tamed)
    by_cases closer : c = '\x7d'
    · subst closer
      -- The last brace of the interpolation puts both in the same mode again.
      rcases depth with _ | _ | depth
      · cases tamed
      · obtain rfl : parens = 0 := beq_iff_eq.mp tamed
        exact Or.inl (.same (modes_plain rfl plain') (on _ rfl rfl begun))
      · exact Or.inl (.bare rfl plain' (on _ rfl rfl begun) tamed)
    · rw [interpolated_within ⟨opener, closer⟩]
      simp only [SheetReader.passOver, beq_iff_eq, opens, closes, opener, closer, if_false] at tamed ⊢
      exact Or.inl (.bare rfl plain' (on _ known rfl begun) tamed)

theorem quoted_goes {depth parens : Nat} {start start' : Place} {quote : Char} (mode : reader.mode = .interpolation depth start)
    (mark : isQuote quote = true) (mode' : passing.mode = .string quote start')
    (beside : Beside reader passing hidden depth parens) (tamed : tame depth parens (some quote) (c :: rest) = true)
    (next : Option Char) :
    Goes reader passing hidden rest (reader.read lineComments c next) (passing.read lineComments c next) := by
  rw [read_interpolation mode]
  unfold tame at tamed
  unfold SheetReader.read
  rw [mode']
  dsimp only at tamed ⊢
  by_cases closed : c = quote
  · subst closed
    have escape : c ≠ '\\' := by
      rintro rfl
      cases mark
    rw [if_pos (beq_self_eq_true c)] at tamed
    rw [interpolated_within (quote_quiet mark), if_neg (by simpa using escape), if_pos (beq_self_eq_true c)]
    exact Or.inl (.bare rfl rfl (beside.keep c c _ _) tamed)
  · rw [if_neg (by simpa using closed)] at tamed
    simp only [List.mem_cons, List.not_mem_nil, or_false, not_or, Bool.and_eq_true, decide_eq_true_eq] at tamed
    obtain ⟨⟨escape, feed, opener, closer⟩, tamed⟩ := tamed
    rw [interpolated_within ⟨opener, closer⟩, if_neg (by simpa using escape), if_neg (by simpa using closed),
      if_neg (by simpa using feed)]
    exact Or.inl (.quoted rfl mark rfl (beside.keep c c _ _) tamed)

theorem same_goes (lineComments : Bool) (modes : Modes (fun _ _ => True) reader.mode passing.mode)
    (beside : Beside reader passing hidden 0 0) (fair : evenAt reader hidden c rest = true) :
    Goes reader passing (hiddenBehind reader hidden c) rest (reader.read lineComments c rest.head?)
      (passing.read lineComments c rest.head?) := by
  by_cases plain : reader.mode = .plain
  · have plain' : passing.mode = .plain := by
      rw [plain] at modes
      generalize passing.mode = mode' at modes
      cases modes
      rfl
    have same : reader.read lineComments c rest.head? = reader.readPlain lineComments c rest.head? := by rw [SheetReader.read, plain]
    have same' : passing.read lineComments c rest.head? = passing.readPlain lineComments c rest.head? := by
      rw [SheetReader.read, plain']
    rw [same, same']
    exact readPlain_goes lineComments beside plain plain' fair
  · rw [hidden_masked plain]
    -- Only a line feed behind a line comment is read in plain text after all, and it hides nothing.
    refine read_modes modes (Or.inl (.same modes beside)) (fun modes => Or.inl (.same modes (beside.turn _ _)))
      (fun modes => Or.inl (.same modes (beside.keep c c _ _))) (fun _ => trivial) (fun now => (plain now).elim) fun feed => ?_
    subst feed
    have still : hiddenBehind { reader with mode := .plain } hidden '\n' = hidden := hidden_quiet (by decide) _ _
    have fair : evenAt { reader with mode := .plain } hidden '\n' rest = true := by
      unfold evenAt
      split <;> simp
    have onward := readPlain_goes lineComments (beside.turn .plain .plain) rfl rfl fair
    rw [still] at onward
    exact onward

theorem read_goes (lineComments : Bool) (abreast : Abreast reader passing hidden (c :: rest))
    (fair : evenAt reader hidden c rest = true) :
    Goes reader passing (hiddenBehind reader hidden c) rest (reader.read lineComments c rest.head?)
      (passing.read lineComments c rest.head?) := by
  cases abreast with
  | same modes beside => exact same_goes lineComments modes beside fair
  | bare mode plain' beside tamed =>
    have plainly : passing.read lineComments c rest.head? = passing.readPlain lineComments c rest.head? := by
      rw [SheetReader.read, plain']
    rw [hidden_masked (by simp [mode]), plainly]
    exact bare_goes mode plain' beside tamed
  | quoted mode mark mode' beside tamed =>
    rw [hidden_masked (by simp [mode])]
    exact quoted_goes mode mark mode' beside tamed _

/-- Both take a step, or both fail. -/
theorem step_goes (lineComments : Bool) (abreast : Abreast reader passing hidden (c :: rest))
    (fair : evenAt reader hidden c rest = true) :
    Outcomes (fun after after' => after.here = reader.here.after c ∧ after'.here = passing.here.after c ∧
        (Abreast after after' (hiddenBehind reader hidden c) rest ∨ Ended after after' after.here.offset after'.here.offset))
      (fun _ _ => True) (reader.step lineComments c rest.head?) (passing.step lineComments c rest.head?) := by
  have goes := read_goes lineComments abreast fair
  unfold SheetReader.step
  cases read : reader.read lineComments c rest.head? <;> cases read' : passing.read lineComments c rest.head? <;>
    unfold Goes at goes <;> rw [read, read'] at goes
  case error.error => exact trivial
  case error.ok => exact goes.elim
  case ok.error => exact goes.elim
  case ok.ok =>
    have offset := behind_offset reader.here [c]
    have offset' := behind_offset passing.here [c]
    refine ⟨rfl, rfl, goes.imp (·.move _ _) fun ended => ?_⟩
    simp only [behind_cons, behind_nil, List.length_singleton] at offset offset'
    dsimp only
    rw [offset, offset']
    exact { ended with }

end Steps

end CascadeLens.Proofs.PassedSteps
