import CascadeLens.Proofs.SheetSeam

/-! A block that is read beside one that is passed over. Passing over counts braces and knows no interpolation, and
reading hides the braces in parentheses. Up to the brace that closes the block, the levels open above it and the braces
hidden are the braces counted, as long as those in parentheses are closed there and no interpolation holds what passing
over takes for something else. -/

namespace CascadeLens.Proofs.PassedBlocks
open Text SheetSteps SheetRelocation SheetSimulation SheetSeam

/-- An interpolation that is also a block when it is passed over: its strings are closed and hold no braces, its
parentheses are paired, and it holds no escapes and no comments. Given are the braces and parentheses open and the
quote of the string that is. -/
def tame (depth parens : Nat) (quote : Option Char) : Text → Bool
  | [] => true
  | c :: rest =>
    match quote with
    | some mark =>
      if c == mark then tame depth parens none rest
      else c ∉ ['\\', '\n', '\x7b', '\x7d'] && tame depth parens quote rest
    | none =>
      if isQuote c then tame depth parens (some c) rest
      else if c == '\\' || c == '/' && (rest.head? == some '*' || rest.head? == some '/') then false
      else if c == '(' then tame depth (parens + 1) none rest
      else if c == ')' then parens != 0 && tame depth (parens - 1) none rest
      else if c == '\x7b' then tame (depth + 1) parens none rest
      else if c == '\x7d' then
        match depth with
        | 0 => false
        | 1 => parens == 0
        | depth + 2 => tame (depth + 1) parens none rest
      else tame depth parens none rest

/-- Whether a character in front of a text counts alike where it is read and where it is passed over, with some braces
open in parentheses that hide them. Those are closed in the parentheses, a block that is passed over in any case is
closed outside of parentheses, and an interpolation that is begun is tame. -/
def evenAt (reader : SheetReader) (hidden : Nat) (c : Char) (rest : Text) : Bool :=
  reader.mode != .plain ||
    match reader.level.kind with
    | .passed depth _ => c != '\x7d' || depth != 0 || reader.level.parens == 0
    | _ =>
      (c != '\x7d' || reader.level.parens == 0 || hidden != 0) && (c != ')' || hidden == 0 || reader.level.parens != 1) &&
        (c != '#' || rest.head? != some '\x7b' || tame 0 0 none rest)

/-- The hidden braces behind a character. Parentheses hide braces where a block is read. -/
def hiddenBehind (reader : SheetReader) (hidden : Nat) (c : Char) : Nat :=
  if reader.mode != .plain || reader.level.isPassed || reader.level.parens == 0 then hidden
  else if c == '\x7b' then hidden + 1
  else if c == '\x7d' then hidden - 1
  else hidden

/-- Whether all characters of a text count alike up to the end of the blocks that are open. -/
def even (lineComments : Bool) (reader : SheetReader) (hidden : Nat) : Text → Bool
  | [] => true
  | c :: rest =>
    reader.outer.isEmpty || evenAt reader hidden c rest &&
      match reader.step lineComments c rest.head? with
      | .error _ => true
      | .ok after => even lineComments after (hiddenBehind reader hidden c) rest

/-- The level of a sheet in which nothing has been found. -/
def sheetLevel : Level := { kind := .sheet, atRules := [], start := {} }

/-- Levels from the inside out that stand in a style block at the start of a sheet, or are that block. Around others
stand only levels that are read, outside of parentheses. -/
def Above : Level → List Level → Prop
  | _, [] => False
  | level, [base] => base = sheetLevel ∧ (∃ selector order, level.kind = .style selector order) ∧ level.start = {}
  | _, around :: next :: outer => around.parens = 0 ∧ around.isPassed = false ∧ Above around (next :: outer)

/-- The braces open inside of a level that is passed over. -/
def bracesIn : LevelKind → Nat
  | .passed depth _ => depth
  | _ => 0

/-- The braces open inside of the first block. -/
def bracesOf (reader : SheetReader) : Nat := reader.outer.length - 1 + bracesIn reader.level.kind

/-- An at-rule of the sheet that is kept as a property. -/
def isProperty (rule : AtRule) : Prop := rule.name = "property".toList

/-- A reader that passes over a block at the start of a sheet. -/
structure Passing (reader : SheetReader) (depth : Nat) : Prop where
  kind : ∃ rule, isProperty rule ∧ reader.level.kind = .passed depth (some rule)
  start : reader.level.start = {}
  outer : reader.outer = [sheetLevel]
  properties : reader.properties = []

/-- A reader inside of the first block, and one that passes over it and counts the same braces and parentheses, those
hidden in parentheses among them. It may count more of both. -/
structure Beside (reader passing : SheetReader) (hidden depth parens : Nat) : Prop where
  above : Above reader.level reader.outer
  held : hidden = 0 ∨ reader.level.isPassed = false ∧ reader.level.parens ≠ 0
  parens : passing.level.parens = reader.level.parens + parens
  counted : Passing passing (bracesOf reader + hidden + depth)

/-- Both readers are in the same mode behind the same text, or the first one is in an interpolation. The braces and
parentheses in it count on the other side only, and so do its strings. -/
inductive Abreast (reader passing : SheetReader) (hidden : Nat) (rest : Text) : Prop
  | same (modes : Modes (fun _ _ => True) reader.mode passing.mode) (beside : Beside reader passing hidden 0 0)
  | bare {depth parens : Nat} {start : Place} (mode : reader.mode = .interpolation depth start) (plain : passing.mode = .plain)
    (beside : Beside reader passing hidden depth parens) (tamed : tame depth parens none rest = true)
  | quoted {depth parens : Nat} {start start' : Place} {quote : Char} (mode : reader.mode = .interpolation depth start)
    (mark : isQuote quote = true) (mode' : passing.mode = .string quote start')
    (beside : Beside reader passing hidden depth parens) (tamed : tame depth parens (some quote) rest = true)

/-- Both are behind the first block. -/
structure Ended (reader passing : SheetReader) (stop stop' : Nat) : Prop where
  mode : reader.mode = .plain
  mode' : passing.mode = .plain
  outer : reader.outer = []
  outer' : passing.outer = []
  level : ∃ block children, reader.level = { sheetLevel with blocks := [.node block children] } ∧ block.start = 0 ∧
    block.stop = stop
  level' : passing.level = sheetLevel
  found : ∃ block, passing.properties = [block] ∧ block.start = 0 ∧ block.stop = stop'

/-- Either both fail, or both go on in the block or leave it. -/
def Goes (reader passing : SheetReader) (hidden : Nat) (rest : Text) :
    Except Fault SheetReader → Except Fault SheetReader → Prop :=
  Outcomes (fun after after' => Abreast after after' hidden rest ∨
    Ended after after' (reader.here.offset + 1) (passing.here.offset + 1)) fun _ _ => True

section Levels

variable {reader passing : SheetReader} {level next : Level} {outer : List Level} {hidden depth parens : Nat} {rest : Text}
  {c : Char}

theorem Above.stay (above : Above level outer) (kind : next.kind = level.kind) (start : next.start = level.start) :
    Above next outer := by
  match outer, above with
  | [_], ⟨base, ⟨selector, order, style⟩, begins⟩ => exact ⟨base, ⟨selector, order, kind.trans style⟩, start.trans begins⟩
  | _ :: _ :: _, outside => exact outside

theorem Above.filled (above : Above level outer) : ∃ around more, outer = around :: more := by
  match outer, above with
  | around :: more, _ => exact ⟨around, more, rfl⟩

/-- A level that is passed over is not the first block itself. -/
theorem Above.around (above : Above level outer) (passed : level.isPassed = true) : ∃ around next more,
    outer = around :: next :: more ∧ around.parens = 0 ∧ around.isPassed = false ∧ Above around (next :: more) := by
  match outer, above with
  | [_], ⟨_, ⟨selector, order, style⟩, _⟩ => simp [Level.isPassed, style] at passed
  | around :: next :: more, ⟨parens, read, outside⟩ => exact ⟨around, next, more, rfl, parens, read, outside⟩

theorem bracesIn_read (read : level.isPassed = false) : bracesIn level.kind = 0 := by
  unfold Level.isPassed at read
  cases kind : level.kind <;> simp_all [bracesIn]

theorem read_of_other (other : ∀ depth keep, level.kind = .passed depth keep → False) : level.isPassed = false := by
  unfold Level.isPassed
  split
  next depth keep kind => exact (other depth keep kind).elim
  next => rfl

theorem begin_parens (level : Level) (here : Place) (c : Char) : (level.begin here c).parens = level.parens := by
  unfold Level.begin
  split <;> rfl

theorem flush_parens (level : Level) : level.flush.parens = level.parens := by
  unfold Level.flush
  split <;> rfl

theorem close_parens (level around : Level) (here : Place) : (level.close around here).parens = around.parens := by
  unfold Level.close
  split <;> rfl

theorem Beside.change (beside : Beside reader passing hidden depth parens) {hidden' depth' parens' : Nat} {level level' : Level}
    (kind : level.kind = reader.level.kind) (start : level.start = reader.level.start) {rule : AtRule} (named : isProperty rule)
    (kind' : level'.kind = .passed (bracesOf reader + hidden' + depth') (some rule)) (start' : level'.start = passing.level.start)
    (same : level'.parens = level.parens + parens') (held : hidden' = 0 ∨ reader.level.isPassed = false ∧ level.parens ≠ 0)
    (mode mode' : ReadMode) :
    Beside { reader with level, mode } { passing with level := level', mode := mode' } hidden' depth' parens' := by
  have braces : bracesOf { reader with level, mode } = bracesOf reader := by simp only [bracesOf, kind]
  have passed : level.isPassed = reader.level.isPassed := by simp only [Level.isPassed, kind]
  refine ⟨beside.above.stay kind start, by rwa [passed], same, ⟨rule, named, ?_⟩, ?_, beside.counted.outer, beside.counted.properties⟩
  · rw [braces]
    exact kind'
  · exact start'.trans beside.counted.start

/-- Both go on on their levels. -/
theorem Beside.stay (beside : Beside reader passing hidden depth parens) {level level' : Level}
    (kind : level.kind = reader.level.kind) (start : level.start = reader.level.start) (kind' : level'.kind = passing.level.kind)
    (start' : level'.start = passing.level.start) (same : level'.parens = level.parens + parens)
    (held : hidden = 0 ∨ level.parens ≠ 0) (mode mode' : ReadMode) :
    Beside { reader with level, mode } { passing with level := level', mode := mode' } hidden depth parens := by
  obtain ⟨rule, named, known⟩ := beside.counted.kind
  refine beside.change kind start named (kind'.trans known) start' same ?_ mode mode'
  exact held.elim Or.inl fun inside => beside.held.imp_right fun reads => ⟨reads.1, inside⟩

theorem Beside.inside (beside : Beside reader passing hidden depth parens) : hidden = 0 ∨ reader.level.parens ≠ 0 :=
  beside.held.imp_right And.right

theorem Beside.keep (beside : Beside reader passing hidden depth parens) (c c' : Char) (mode mode' : ReadMode) :
    Beside { reader with level := reader.level.keep c, mode } { passing with level := passing.level.keep c', mode := mode' }
      hidden depth parens :=
  @Beside.stay reader passing hidden depth parens beside (reader.level.keep c) (passing.level.keep c') rfl rfl rfl rfl
    beside.parens beside.inside mode mode'

theorem Beside.turn (beside : Beside reader passing hidden depth parens) (mode mode' : ReadMode) :
    Beside { reader with mode } { passing with mode := mode' } hidden depth parens :=
  @Beside.stay reader passing hidden depth parens beside reader.level passing.level rfl rfl rfl rfl beside.parens beside.inside
    mode mode'

theorem Beside.noting (beside : Beside reader passing hidden depth parens) (c : Char) :
    Beside (noting reader c) (noting passing c) hidden depth parens := by
  have kept := begin_parens reader.level reader.here c
  refine @Beside.stay reader passing hidden depth parens beside _ _ (begin_same _ _ _).1 (noted_start _ _ _)
    (begin_same _ _ _).1 (noted_start _ _ _) ?_ ?_ reader.mode passing.mode
  · rw [kept, begin_parens, beside.parens]
  · rw [kept]
    exact beside.inside

theorem Beside.move (beside : Beside reader passing hidden depth parens) (here here' : Place) :
    Beside { reader with here } { passing with here := here' } hidden depth parens :=
  ⟨beside.above, beside.held, beside.parens, { beside.counted with }⟩

theorem Abreast.move (abreast : Abreast reader passing hidden rest) (here here' : Place) :
    Abreast { reader with here } { passing with here := here' } hidden rest := by
  cases abreast with
  | same modes beside => exact .same modes (beside.move here here')
  | bare mode plain' beside tamed => exact .bare mode plain' (beside.move here here') tamed
  | quoted mode mark mode' beside tamed => exact .quoted mode mark mode' (beside.move here here') tamed

theorem Abreast.beside (abreast : Abreast reader passing hidden rest) :
    ∃ depth parens, Beside reader passing hidden depth parens := by
  cases abreast with
  | same _ beside | bare _ _ beside | quoted _ _ _ beside => exact ⟨_, _, beside⟩

theorem Abreast.filled (abreast : Abreast reader passing hidden rest) : reader.outer ≠ [] ∧ passing.outer ≠ [] := by
  obtain ⟨depth, parens, beside⟩ := abreast.beside
  obtain ⟨around, more, outer⟩ := beside.above.filled
  rw [outer, beside.counted.outer]
  exact ⟨List.cons_ne_nil _ _, List.cons_ne_nil _ _⟩

/-- Outside of parentheses nothing is hidden. -/
theorem Beside.outside (beside : Beside reader passing hidden depth parens) (outside : reader.level.parens = 0) : hidden = 0 :=
  beside.inside.resolve_right (not_not.mpr outside)

/-- Behind an opening brace one more level or one more brace is open. -/
theorem enter_abreast (beside : Beside reader passing 0 0 0) (read : reader.level.isPassed = false)
    (outside : reader.level.parens = 0) (modes : Modes (fun _ _ => True) reader.mode passing.mode) {rule : AtRule}
    (named : isProperty rule) :
    Abreast reader.enter
      { passing with level := { passing.level with kind := .passed (bracesOf reader + 1) (some rule) } } 0 rest := by
  have inner : (reader.level.inner reader.here reader.count).parens = 0 ∧
      bracesIn (reader.level.inner reader.here reader.count).kind = 0 := by
    unfold Level.inner
    split
    · dsimp only
      split_ifs <;> exact ⟨rfl, rfl⟩
    · exact ⟨rfl, rfl⟩
  have same : passing.level.parens = 0 := beside.parens.trans outside
  have above := beside.above
  obtain ⟨around, more, outer⟩ := above.filled
  refine .same modes ⟨?_, Or.inl rfl, same.trans inner.1.symm, ⟨rule, named, ?_⟩, beside.counted.start, beside.counted.outer,
    beside.counted.properties⟩
  · simp only [SheetReader.enter]
    rw [outer] at above ⊢
    exact ⟨outside, read, above.stay rfl rfl⟩
  · simp only [bracesOf, SheetReader.enter, inner.2, bracesIn_read read, outer, List.length_cons]
    rfl

/-- What is kept of a block of the sheet that is passed over, up to its closing brace here. -/
def keptBlock (passing : SheetReader) (rule : AtRule) : FoundAtBlock where
  name := rule.name
  params := rule.params
  atRules := []
  start := passing.level.start.offset
  stop := passing.here.offset + 1
  startLine := passing.level.start.line
  endLine := passing.here.line

/-- The block that is passed over is kept from the start of the text up to its closing brace. -/
theorem Passing.last (counted : Passing passing depth) {rule : AtRule} (named : isProperty rule) :
    ∃ block : FoundAtBlock,
      passing.leavePassed (some rule) = { passing with level := sheetLevel, outer := [], properties := [block] } ∧
      block.start = 0 ∧ block.stop = passing.here.offset + 1 := by
  refine ⟨keptBlock passing rule, ?_, congrArg Place.offset counted.start, rfl⟩
  simp only [SheetReader.leavePassed, counted.outer, counted.properties, named.symm, BEq.rfl, if_true]
  rfl

/-- Behind the closing brace of the first block both are back in the sheet. -/
theorem leave_ended {around : Level} (beside : Beside reader passing 0 0 0) (read : reader.level.isPassed = false)
    (outer : reader.outer = [around]) (plain : reader.mode = .plain) (plain' : passing.mode = .plain) {rule : AtRule}
    (named : isProperty rule) :
    ∃ after, reader.leave = .ok after ∧
      Ended after (passing.passOver (bracesOf reader) (some rule) '\x7d') (reader.here.offset + 1) (passing.here.offset + 1) := by
  have above := beside.above
  rw [outer] at above
  obtain ⟨rfl, ⟨selector, order, style⟩, start⟩ := above
  have none : bracesOf reader = 0 := by simp [bracesOf, outer, bracesIn_read read]
  have closed : reader.level.flush.close sheetLevel reader.here =
      { sheetLevel with
        blocks := [.node (reader.level.flush.found selector order reader.here) reader.level.flush.blocks.reverse] } := by
    unfold Level.close
    rw [(flush_same reader.level).1, style]
    rfl
  have begins : (reader.level.flush.found selector order reader.here).start = 0 := by rw [Level.found, flush_start, start]
  obtain ⟨block, left, start', stop'⟩ := beside.counted.last named
  have passed : passing.passOver 0 (some rule) '\x7d' = { passing with level := sheetLevel, outer := [], properties := [block] } :=
    left
  refine ⟨{ reader with level := reader.level.flush.close sheetLevel reader.here, outer := [] }, ?_, ?_⟩
  · rw [SheetReader.leave, outer]
  · rw [none, passed]
    exact ⟨plain, plain', rfl, rfl, ⟨_, _, closed, begins, rfl⟩, rfl, ⟨block, rfl, start', stop'⟩⟩

/-- Behind a closing brace one less is open, or both have come to the end of the first block. -/
theorem leave_goes (beside : Beside reader passing 0 0 0) (read : reader.level.isPassed = false)
    (outside : reader.level.parens = 0) (plain : reader.mode = .plain) (plain' : passing.mode = .plain) {rule : AtRule}
    (named : isProperty rule) :
    Goes reader passing 0 rest reader.leave (.ok (passing.passOver (bracesOf reader) (some rule) '\x7d')) := by
  have above := beside.above
  have counted := beside.counted
  obtain ⟨around, more, outer⟩ := above.filled
  cases more with
  | nil =>
    obtain ⟨after, left, ended⟩ := leave_ended beside read outer plain plain' named
    rw [left]
    exact Or.inr ended
  | cons next more =>
    rw [outer] at above
    obtain ⟨parens, reads, within⟩ := above
    have one : bracesOf reader = more.length + 1 := by simp [bracesOf, outer, bracesIn_read read]
    have kept := (close_same reader.level.flush around reader.here).1
    have start := close_start reader.level.flush around reader.here
    have inner : bracesIn (reader.level.flush.close around reader.here).kind = 0 := by rw [kept, bracesIn_read reads]
    rw [SheetReader.leave, outer, one]
    refine Or.inl (.same (modes_plain plain plain') ⟨within.stay kept start, Or.inl rfl, ?_, ⟨rule, named, ?_⟩, counted.start,
      counted.outer, counted.properties⟩)
    · rw [close_parens, parens]
      exact beside.parens.trans outside
    · simp only [bracesOf, inner]
      rfl

theorem hidden_quiet (quiet : c ≠ '\x7b' ∧ c ≠ '\x7d') (reader : SheetReader) (hidden : Nat) :
    hiddenBehind reader hidden c = hidden := by
  simp [hiddenBehind, quiet]

theorem hidden_masked (masked : reader.mode ≠ .plain) (hidden : Nat) (c : Char) : hiddenBehind reader hidden c = hidden := by
  simp [hiddenBehind, masked]

/-- A brace in parentheses is kept by the one and counted by the other. -/
theorem Beside.shift (beside : Beside reader passing hidden 0 0) (read : reader.level.isPassed = false)
    (inside : reader.level.parens ≠ 0) (modes : Modes (fun _ _ => True) reader.mode passing.mode) {rule : AtRule}
    (named : isProperty rule) (more : Nat) (c : Char) :
    Abreast { reader with level := reader.level.keep c }
      { passing with level := { passing.level with kind := .passed (bracesOf reader + more) (some rule) } } more rest :=
  .same modes (@Beside.change reader passing hidden 0 0 beside more 0 0 (reader.level.keep c)
    { passing.level with kind := .passed (bracesOf reader + more) (some rule) } rfl rfl rule named rfl rfl beside.parens
    (Or.inr ⟨read, inside⟩) reader.mode passing.mode)

theorem opener_goes (beside : Beside reader passing hidden 0 0) (read : reader.level.isPassed = false)
    (plain : reader.mode = .plain) (plain' : passing.mode = .plain) {rule : AtRule} (named : isProperty rule) :
    Goes reader passing (hiddenBehind reader hidden '\x7b') rest (reader.takeIn '\x7b')
      (.ok (passing.passOver (bracesOf reader + hidden) (some rule) '\x7b')) := by
  have modes := @modes_plain (fun _ _ => True) _ _ plain plain'
  by_cases outside : reader.level.parens = 0
  · obtain rfl := beside.outside outside
    have none : hiddenBehind reader 0 '\x7b' = 0 := by simp [hiddenBehind, outside]
    have taken : reader.takeIn '\x7b' = .ok reader.enter := by simp [SheetReader.takeIn, outside]
    rw [none, taken]
    exact Or.inl (enter_abreast beside read outside modes named)
  · have one : hiddenBehind reader hidden '\x7b' = hidden + 1 := by simp [hiddenBehind, plain, read, outside]
    have taken : reader.takeIn '\x7b' = .ok { reader with level := reader.level.keep '\x7b' } := by
      simp [SheetReader.takeIn, outside]
    rw [one, taken]
    exact Or.inl (beside.shift read outside modes named (hidden + 1) '\x7b')

theorem closer_goes (beside : Beside reader passing hidden 0 0) (read : reader.level.isPassed = false)
    (plain : reader.mode = .plain) (plain' : passing.mode = .plain) {rule : AtRule} (named : isProperty rule)
    (closing : reader.level.parens = 0 ∨ hidden ≠ 0) :
    Goes reader passing (hiddenBehind reader hidden '\x7d') rest (reader.takeIn '\x7d')
      (.ok (passing.passOver (bracesOf reader + hidden) (some rule) '\x7d')) := by
  by_cases outside : reader.level.parens = 0
  · obtain rfl := beside.outside outside
    have none : hiddenBehind reader 0 '\x7d' = 0 := by simp [hiddenBehind, outside]
    have taken : reader.takeIn '\x7d' = reader.leave := by simp [SheetReader.takeIn, outside]
    rw [none, taken]
    exact leave_goes beside read outside plain plain' named
  · obtain ⟨less, rfl⟩ := Nat.exists_eq_succ_of_ne_zero (closing.resolve_left outside)
    have one : hiddenBehind reader less.succ '\x7d' = less := by simp [hiddenBehind, plain, read, outside]
    have taken : reader.takeIn '\x7d' = .ok { reader with level := reader.level.keep '\x7d' } := by
      simp [SheetReader.takeIn, outside]
    rw [one, taken]
    exact Or.inl (beside.shift read outside (modes_plain plain plain') named less '\x7d')

theorem takeIn_goes (beside : Beside reader passing hidden 0 0) (read : reader.level.isPassed = false) (plain : reader.mode = .plain)
    (plain' : passing.mode = .plain) {rule : AtRule} (named : isProperty rule)
    (closing : c = '\x7d' → reader.level.parens = 0 ∨ hidden ≠ 0) (balance : c = ')' → hidden = 0 ∨ reader.level.parens ≠ 1) :
    Goes reader passing (hiddenBehind reader hidden c) rest (reader.takeIn c)
      (.ok (passing.passOver (bracesOf reader + hidden) (some rule) c)) := by
  have stay : ∀ {level level' : Level}, level.kind = reader.level.kind → level.start = reader.level.start →
      level'.kind = passing.level.kind → level'.start = passing.level.start → level'.parens = level.parens →
      (hidden = 0 ∨ level.parens ≠ 0) → Abreast { reader with level } { passing with level := level' } hidden rest :=
    fun kind start kind' start' same held => .same (modes_plain plain plain') (beside.stay kind start kind' start' same held _ _)
  -- Only braces count differently where parentheses are open.
  by_cases opener : c = '\x7b'
  · subst opener
    exact opener_goes beside read plain plain' named
  by_cases closer : c = '\x7d'
  · subst closer
    exact closer_goes beside read plain plain' named (closing rfl)
  rw [hidden_quiet ⟨opener, closer⟩]
  by_cases opens : c = '('
  · subst opens
    exact Or.inl (stay rfl rfl rfl rfl (congrArg (· + 1) beside.parens) (Or.inr (Nat.succ_ne_zero _)))
  by_cases closes : c = ')'
  · subst closes
    have still : hidden = 0 ∨ reader.level.parens - 1 ≠ 0 := by
      have settled := balance rfl
      have inside := beside.inside
      omega
    exact Or.inl (stay rfl rfl rfl rfl (congrArg (· - 1) beside.parens) still)
  simp only [SheetReader.takeIn, SheetReader.passOver, beq_iff_eq, opens, closes, opener, closer, if_false, Bool.and_eq_true,
    and_false]
  split
  next ends =>
    obtain rfl := beside.outside ends.1
    exact Or.inl (stay (flush_same _).1 (flush_start _) rfl rfl (beside.parens.trans (flush_parens _).symm) (Or.inl rfl))
  next => exact Or.inl (stay rfl rfl rfl rfl beside.parens beside.inside)

/-- A brace more or less inside of a level that is passed over in any case. -/
theorem abreast_sink (beside : Beside reader passing 0 0 0) {inner inner' : Nat} {keep : Option AtRule} {rule : AtRule}
    (kind : reader.level.kind = .passed inner keep) (modes : Modes (fun _ _ => True) reader.mode passing.mode)
    (named : isProperty rule) :
    Abreast { reader with level := { reader.level with kind := .passed inner' keep } }
      { passing with
        level := { passing.level with kind := .passed (reader.outer.length - 1 + inner') (some rule) } } 0 rest := by
  have counted := beside.counted
  obtain ⟨around, next, more, outer, within⟩ := beside.above.around (by simp [Level.isPassed, kind])
  refine .same modes ⟨?_, Or.inl rfl, beside.parens, ⟨rule, named, rfl⟩, counted.start, counted.outer, counted.properties⟩
  rw [outer]
  exact within

theorem leavePassed_abreast (beside : Beside reader passing 0 0 0) {keep : Option AtRule}
    (kind : reader.level.kind = .passed 0 keep) (outside : reader.level.parens = 0)
    (modes : Modes (fun _ _ => True) reader.mode passing.mode) {rule : AtRule} (named : isProperty rule) :
    Abreast (reader.leavePassed keep) (passing.passOver (bracesOf reader) (some rule) '\x7d') 0 rest := by
  have counted := beside.counted
  obtain ⟨around, next, more, outer, parens, read, within⟩ := beside.above.around (by simp [Level.isPassed, kind])
  have one : bracesOf reader = more.length + 1 := by simp [bracesOf, outer, kind, bracesIn]
  have left : ∃ keyframes properties, reader.leavePassed keep =
      { reader with level := around, outer := next :: more, keyframes, properties } := by
    unfold SheetReader.leavePassed
    rw [outer]
    cases keep with
    | none => exact ⟨_, _, rfl⟩
    | some rule =>
      dsimp only
      split <;> exact ⟨_, _, rfl⟩
  obtain ⟨keyframes, properties, left⟩ := left
  -- The level around is read, outside of parentheses, so both count none.
  rw [left, one]
  refine .same modes ⟨within, Or.inl rfl, ?_, ⟨rule, named, ?_⟩, counted.start, counted.outer, counted.properties⟩
  · exact (beside.parens.trans outside).trans parens.symm
  · simp only [bracesOf, bracesIn_read read]
    rfl

theorem passOver_abreast (beside : Beside reader passing 0 0 0) {inner : Nat} {keep : Option AtRule}
    (kind : reader.level.kind = .passed inner keep) (modes : Modes (fun _ _ => True) reader.mode passing.mode) {rule : AtRule}
    (named : isProperty rule) (closing : c = '\x7d' → inner ≠ 0 ∨ reader.level.parens = 0) :
    Abreast (reader.passOver inner keep c) (passing.passOver (bracesOf reader) (some rule) c) 0 rest := by
  have stay : ∀ {level level' : Level}, level.kind = reader.level.kind → level.start = reader.level.start →
      level'.kind = passing.level.kind → level'.start = passing.level.start → level'.parens = level.parens →
      Abreast { reader with level } { passing with level := level' } 0 rest := fun kind start kind' start' parens =>
    .same modes (beside.stay kind start kind' start' parens (Or.inl rfl) _ _)
  have braces : bracesOf reader = reader.outer.length - 1 + inner := by simp [bracesOf, kind, bracesIn]
  by_cases opens : c = '('
  · subst opens
    exact stay rfl rfl rfl rfl (congrArg (· + 1) beside.parens)
  by_cases closes : c = ')'
  · subst closes
    exact stay rfl rfl rfl rfl (congrArg (· - 1) beside.parens)
  by_cases opener : c = '\x7b'
  · subst opener
    have deeper := @abreast_sink reader passing rest beside inner (inner + 1) keep rule kind modes named
    rw [← Nat.add_assoc, ← braces] at deeper
    exact deeper
  by_cases closer : c = '\x7d'
  · subst closer
    cases inner with
    | zero => exact leavePassed_abreast beside kind ((closing rfl).resolve_left (not_not.mpr rfl)) modes named
    | succ inner =>
      rw [braces, ← Nat.add_assoc]
      exact abreast_sink beside kind modes named
  · simp only [SheetReader.passOver, beq_iff_eq, opens, closes, opener, closer, if_false]
    exact stay rfl rfl rfl rfl beside.parens

end Levels

end CascadeLens.Proofs.PassedBlocks
