import CascadeLens.Proofs.NestReading
import CascadeLens.Proofs.SheetForest
import Mathlib.Data.List.Induction

/-! The quotes in declarations as they are collected. An item is in a string exactly where its own text is, so
no declaration leaves a quote open, unless an interpolation hides some of its text from the reader. -/

namespace CascadeLens.Proofs.DeclarationQuotes
open Text TextShape SheetSteps SheetForest NestReading

/-- Text with an interpolation in it. -/
def Mixed (s : Text) : Prop := ['#', '\x7b'] <:+: s

def Shut (s : Text) : Prop := Mixed s ∨ (Nest.read {} s).quote = none

/-- Text with no quote open, or with an interpolation where those may stand. -/
def Sealed (loose : Prop) (s : Text) : Prop := (loose ∧ Mixed s) ∨ (Nest.read {} s).quote = none

section Texts

variable {loose : Prop} {s t : Text} {c : Char}

theorem Mixed.append (mixed : Mixed s) (t : Text) : Mixed (s ++ t) := mixed.trans (List.prefix_append s t).isInfix

theorem read_snoc (s : Text) (c : Char) : Nest.read {} (s ++ [c]) = (Nest.read {} s).step c := by
  rw [read_append]
  rfl

private theorem dropWhile_blank_middle (solid : isBlank c = false) (s t : Text) :
    ∃ left, (s ++ c :: t).dropWhile isBlank = left ++ c :: t := by
  rw [List.dropWhile_append]
  split
  · exact ⟨[], by simp [solid]⟩
  · exact ⟨s.dropWhile isBlank, rfl⟩

/-- Trimming leaves what stands between two characters. -/
theorem trim_middle {d : Char} (solid : isBlank c = false) (solid' : isBlank d = false) (before between after : Text) :
    ∃ left right, trim (before ++ c :: (between ++ d :: after)) = left ++ c :: (between ++ d :: right) := by
  obtain ⟨left, front⟩ := dropWhile_blank_middle solid before (between ++ d :: after)
  obtain ⟨right, back⟩ := dropWhile_blank_middle solid' after.reverse ((left ++ c :: between).reverse)
  refine ⟨left, right.reverse, ?_⟩
  have reversed : (left ++ c :: (between ++ d :: after)).reverse = after.reverse ++ d :: (left ++ c :: between).reverse := by
    simp
  rw [trim, trimLeft, front, trimRight, reversed, back]
  simp

theorem Mixed.trim (mixed : Mixed s) : Mixed (trim s) := by
  obtain ⟨before, after, rfl⟩ := mixed
  obtain ⟨left, right, whole⟩ := @trim_middle '#' '\x7b' (by decide) (by decide) before [] after
  have spelt : before ++ ['#', '\x7b'] ++ after = before ++ '#' :: ([] ++ '\x7b' :: after) := by simp
  rw [spelt, whole]
  exact ⟨left, right, by simp⟩

theorem quoting_read (s : Text) : Quoting (Nest.read {} s) := by
  induction s using List.reverseRecOn with
  | nil => exact nofun
  | append_singleton s c ih =>
    rw [read_snoc]
    exact ih.step c

/-- Blanks at the ends open and close no quote. -/
theorem quote_trim (s : Text) : (Nest.read {} (trim s)).quote = (Nest.read {} s).quote := by
  obtain ⟨before, after, whole, white, white'⟩ := trim_spec s
  have plain : ∀ c ∈ after, ordinary c = true := fun c member => ordinary_of_isBlank (white' c member)
  have front : Nest.read {} before = {} := read_ordinary (fun c member => ordinary_of_isBlank (white c member)) 0
  conv_rhs => rw [whole, read_append, front, read_append]
  cases after with
  | nil => rfl
  | cons c rest => rw [(quoting_read (trim s)).read_ordinary (List.cons_ne_nil c rest) plain]

theorem Sealed.trim (shut : Sealed loose s) : Sealed loose (trim s) := by
  rcases shut with mixed | closed
  · exact Or.inl (mixed.imp_right Mixed.trim)
  · exact Or.inr ((quote_trim s).trans closed)

theorem step_bare {nest : Nest} (bare : Bare nest) (quote : isQuote c = false) (escape : c ≠ '\\') : Bare (nest.step c) := by
  rw [eq_within bare]
  unfold Nest.step within
  simp only [quote, escape, beq_iff_eq, if_false, Bool.false_eq_true]
  split_ifs <;> exact ⟨rfl, rfl⟩

end Texts

/-- How the text of an item is read in a mode. -/
def Agrees (nest : Nest) : ReadMode → Prop
  | .string quote _ => nest.quote = some quote ∧ nest.escaped = false
  | .stringEscape quote _ => nest.quote = some quote ∧ nest.escaped = true
  | .escape => nest.quote = none ∧ nest.escaped = true
  | .interpolation .. => False
  | .plain | .commentMark _ | .comment _ | .commentEnd | .lineComment => Bare nest

/-- In front of the brace of an interpolation. -/
structure Opening (loose : Prop) (mode : ReadMode) (item rest : Text) : Prop where
  loose : loose
  mode : ∃ depth start, mode = .interpolation depth start
  item : item.head? = some '#'
  rest : rest.head? = some '\x7b'

/-- What a level has collected. -/
structure Collected (loose : Prop) (level : Level) : Prop where
  declarations : ∀ raw ∈ level.declarations, Sealed loose raw.text
  blocks : ∀ block ∈ blocksIn level.blocks, ∀ raw ∈ block.declarations, Sealed loose raw.text

/-- The invariant of a reader with a rest to read. It tells of interpolations only where they may stand. -/
structure Holds (loose : Prop) (reader : SheetReader) (rest : Text) : Prop where
  item : (loose ∧ Mixed reader.level.item.reverse) ∨ Agrees (Nest.read {} reader.level.item.reverse) reader.mode ∨
    Opening loose reader.mode reader.level.item rest
  own : Collected loose reader.level
  outer : ∀ level ∈ reader.outer, Collected loose level ∧ level.item = []

section Levels

variable {loose : Prop} {level around : Level} {here : Place}

theorem collected_of_same {other : Level} (collected : Collected loose level)
    (declarations : other.declarations = level.declarations) (blocks : other.blocks = level.blocks) : Collected loose other :=
  ⟨declarations ▸ collected.declarations, blocks ▸ collected.blocks⟩

theorem Collected.flush (collected : Collected loose level) (shut : Sealed loose level.item.reverse) :
    Collected loose level.flush := by
  unfold Level.flush
  split
  next start c rest begun whole =>
    refine ⟨List.forall_mem_cons.mpr ⟨?_, collected.declarations⟩, collected.blocks⟩
    rw [← whole]
    exact shut.trim
  next => exact ⟨collected.declarations, collected.blocks⟩

theorem flush_item (level : Level) : level.flush.item = [] := by
  unfold Level.flush
  split <;> rfl

theorem inner_collected (level : Level) (here : Place) (count : Nat) :
    Collected loose (level.inner here count) ∧ (level.inner here count).item = [] := by
  have nothing : ∀ kind atRules start, Collected loose ⟨kind, atRules, start, [], [], [], none, 0⟩ :=
    fun _ _ _ => ⟨nofun, nofun⟩
  unfold Level.inner
  split
  · dsimp only
    split_ifs <;> exact ⟨nothing _ _ _, rfl⟩
  · exact ⟨nothing _ _ _, rfl⟩

theorem mem_blocksIn_reverse {block : FoundBlock} {trees : List BlockTree} :
    block ∈ blocksIn trees.reverse ↔ block ∈ blocksIn trees := by
  induction trees with
  | nil => rfl
  | cons tree rest ih =>
    simp only [List.reverse_cons, blocksIn_append, List.mem_append, ih, blocksIn, List.append_nil]
    exact or_comm

/-- What a level has collected goes to the level around it, in part as that of a block. -/
theorem Collected.close (collected : Collected loose level) (outside : Collected loose around) (here : Place) :
    Collected loose (level.close around here) := by
  have own : ∀ selector order, ∀ raw ∈ (level.found selector order here).declarations, Sealed loose raw.text :=
    fun _ _ raw member => collected.declarations raw (List.mem_reverse.mp member)
  unfold Level.close
  split
  next selector order kind =>
    refine ⟨outside.declarations, ?_⟩
    dsimp only
    rw [blocksIn, blocksOf]
    refine List.forall_mem_append.mpr ⟨List.forall_mem_cons.mpr ⟨own selector order, ?_⟩, outside.blocks⟩
    exact fun block member => collected.blocks block (mem_blocksIn_reverse.mp member)
  next order kind =>
    refine ⟨outside.declarations, ?_⟩
    dsimp only
    rw [blocksIn_append, blocksIn_append]
    refine List.forall_mem_append.mpr ⟨List.forall_mem_append.mpr ⟨collected.blocks, ?_⟩, outside.blocks⟩
    split
    · exact List.forall_mem_nil _
    · exact List.forall_mem_singleton.mpr (own ['&'] order)
  next =>
    refine ⟨List.forall_mem_append.mpr ⟨collected.declarations, outside.declarations⟩, ?_⟩
    dsimp only
    rw [blocksIn_append]
    exact List.forall_mem_append.mpr ⟨collected.blocks, outside.blocks⟩
  next => exact outside
  next => exact outside

end Levels

section Readers

variable {loose : Prop} {reader after : SheetReader} {item rest : Text} {c : Char}

/-- An item outside of strings and escapes. -/
def Calm (loose : Prop) (item : Text) : Prop := (loose ∧ Mixed item.reverse) ∨ Bare (Nest.read {} item.reverse)

theorem Calm.shut (calm : Calm loose item) : Sealed loose item.reverse := calm.imp_right And.left

theorem Mixed.keep (mixed : Mixed item.reverse) (c : Char) : Mixed (c :: item).reverse := by
  rw [List.reverse_cons]
  exact mixed.append [c]

theorem Calm.keep (calm : Calm loose item) (quote : isQuote c = false) (escape : c ≠ '\\') : Calm loose (c :: item) := by
  rcases calm with mixed | bare
  · exact Or.inl (mixed.imp_right (·.keep c))
  · refine Or.inr ?_
    rw [List.reverse_cons, read_snoc]
    exact step_bare bare quote escape

theorem Calm.quote (calm : Calm loose item) (quote : isQuote c = true) (start : Place) :
    (loose ∧ Mixed (c :: item).reverse) ∨ Agrees (Nest.read {} (c :: item).reverse) (.string c start) := by
  rcases calm with mixed | bare
  · exact Or.inl (mixed.imp_right (·.keep c))
  · have escape : c ≠ '\\' := by
      rintro rfl
      cases quote
    rw [List.reverse_cons, read_snoc, eq_within bare]
    simp [Agrees, Nest.step, within, quote, escape]

theorem Calm.escape (calm : Calm loose item) :
    (loose ∧ Mixed ('\\' :: item).reverse) ∨ Agrees (Nest.read {} ('\\' :: item).reverse) .escape := by
  rcases calm with mixed | bare
  · exact Or.inl (mixed.imp_right (·.keep '\\'))
  · rw [List.reverse_cons, read_snoc, eq_within bare]
    exact Or.inr ⟨rfl, rfl⟩

theorem Holds.calm (holds : Holds loose reader rest) (plain : reader.mode = .plain) : Calm loose reader.level.item := by
  rcases holds.item with mixed | agrees | opening
  · exact Or.inl mixed
  · rw [plain] at agrees
    exact Or.inr agrees
  · obtain ⟨depth, start, mode⟩ := opening.mode
    rw [plain] at mode
    cases mode

/-- Only the text of the item and the mode matter. -/
theorem Holds.onward {mode : ReadMode} {rest' : Text} (holds : Holds loose reader rest) (parens : Nat)
    (fits : (loose ∧ Mixed item.reverse) ∨ Agrees (Nest.read {} item.reverse) mode ∨ Opening loose mode item rest') :
    Holds loose { reader with level := { reader.level with item, parens }, mode } rest' :=
  ⟨fits, collected_of_same holds.own rfl rfl, holds.outer⟩

theorem Holds.kept {rest' : Text} (holds : Holds loose reader rest) (plain : reader.mode = .plain) (parens : Nat)
    (quote : isQuote c = false) (escape : c ≠ '\\') :
    Holds loose { reader with level := { reader.level.keep c with parens } } rest' := by
  have calm := (holds.calm plain).keep quote escape
  refine ⟨calm.imp_right fun bare => Or.inl ?_, collected_of_same holds.own rfl rfl, holds.outer⟩
  rw [plain]
  exact bare

theorem Holds.noted (holds : Holds loose reader rest) (c : Char) : Holds loose (noting reader c) rest := by
  unfold noting Level.begin
  split
  · exact ⟨holds.item, collected_of_same holds.own rfl rfl, holds.outer⟩
  · exact holds

theorem Holds.leavePassed {rest' : Text} (holds : Holds loose reader rest) (plain : reader.mode = .plain)
    (keep : Option AtRule) : Holds loose (reader.leavePassed keep) rest' := by
  have calm := holds.calm plain
  unfold SheetReader.leavePassed
  split
  next => exact ⟨calm.imp_right fun bare => Or.inl (plain ▸ bare), holds.own, holds.outer⟩
  next around outer levels =>
    obtain ⟨⟨collected, blank⟩, others⟩ := List.forall_mem_cons.mp (levels ▸ holds.outer)
    have left : Holds loose { reader with level := around, outer } rest' := by
      refine ⟨?_, collected, others⟩
      rw [blank, plain]
      exact Or.inr (Or.inl ⟨rfl, rfl⟩)
    cases keep with
    | none => exact left
    | some rule =>
      dsimp only
      split <;> exact ⟨left.item, left.own, left.outer⟩

theorem Holds.passOver {rest' : Text} (holds : Holds loose reader rest) (plain : reader.mode = .plain) (depth : Nat)
    (keep : Option AtRule) (c : Char) : Holds loose (reader.passOver depth keep c) rest' := by
  have calm := holds.calm plain
  have stays : ∀ parens kind, Holds loose { reader with level := { reader.level with parens, kind } } rest' := fun _ _ =>
    ⟨calm.imp_right fun bare => Or.inl (plain ▸ bare), collected_of_same holds.own rfl rfl, holds.outer⟩
  unfold SheetReader.passOver
  dsimp only
  split_ifs
  · exact stays _ _
  · exact stays _ _
  · exact stays _ _
  · cases depth with
    | zero => exact holds.leavePassed plain keep
    | succ depth => exact stays _ _
  · exact stays _ _

theorem close_item (level around : Level) (here : Place) : (level.close around here).item = around.item := by
  unfold Level.close
  split <;> rfl

theorem Holds.leave {rest' : Text} (holds : Holds loose reader rest) (plain : reader.mode = .plain)
    (left : reader.leave = .ok after) : Holds loose after rest' := by
  unfold SheetReader.leave at left
  split at left
  · cases left
  next around outer levels =>
    obtain ⟨⟨collected, blank⟩, others⟩ := List.forall_mem_cons.mp (levels ▸ holds.outer)
    cases left
    refine ⟨?_, (holds.own.flush (holds.calm plain).shut).close collected reader.here, others⟩
    rw [close_item, blank, plain]
    exact Or.inr (Or.inl ⟨rfl, rfl⟩)

theorem Holds.enter {rest' : Text} (holds : Holds loose reader rest) (plain : reader.mode = .plain) :
    Holds loose reader.enter rest' := by
  obtain ⟨collected, blank⟩ := inner_collected reader.level reader.here reader.count
  refine ⟨?_, collected, List.forall_mem_cons.mpr ⟨⟨collected_of_same holds.own rfl rfl, rfl⟩, holds.outer⟩⟩
  rw [SheetReader.enter, blank, plain]
  exact Or.inr (Or.inl ⟨rfl, rfl⟩)

theorem Holds.takeIn {rest' : Text} (holds : Holds loose reader rest) (plain : reader.mode = .plain)
    (quote : isQuote c = false) (escape : c ≠ '\\') (taken : reader.takeIn c = .ok after) : Holds loose after rest' := by
  unfold SheetReader.takeIn at taken
  dsimp only at taken
  split_ifs at taken
  · cases taken
    exact holds.kept plain _ quote escape
  · cases taken
    exact holds.kept plain _ quote escape
  · cases taken
    refine ⟨?_, holds.own.flush (holds.calm plain).shut, holds.outer⟩
    rw [flush_item, plain]
    exact Or.inr (Or.inl ⟨rfl, rfl⟩)
  · cases taken
    exact holds.enter plain
  · exact holds.leave plain taken
  · cases taken
    exact holds.kept plain _ quote escape

theorem Holds.readPlain {lineComments : Bool} (holds : Holds loose reader (c :: rest)) (plain : reader.mode = .plain)
    (read : reader.readPlain lineComments c rest.head? = .ok after)
    (known : ∀ depth start, after.mode = .interpolation depth start → loose) : Holds loose after rest := by
  have calm := holds.calm plain
  have noted := holds.noted c
  unfold SheetReader.readPlain at read
  dsimp only at read
  split_ifs at read with comment line quote escape opening
  · cases read
    exact holds.onward _ ((calm.keep (by decide) (by decide)).imp_right Or.inl)
  · cases read
    exact holds.onward _ (calm.imp_right Or.inl)
  · cases read
    exact noted.onward _ (((noted.calm plain).quote quote _).imp_right Or.inl)
  · cases read
    rw [beq_iff_eq] at escape
    subst escape
    exact noted.onward _ ((noted.calm plain).escape.imp_right Or.inl)
  · split at read
    next depth keep kind =>
      cases read
      exact noted.passOver plain depth keep c
    next =>
      cases read
      simp only [Bool.and_eq_true, beq_iff_eq] at opening
      exact noted.onward _ (Or.inr (Or.inr ⟨known 0 _ rfl, ⟨0, _, rfl⟩, by rw [opening.1]; rfl, opening.2⟩))
  · split at read
    next depth keep kind =>
      cases read
      exact noted.passOver plain depth keep c
    next => exact noted.takeIn plain (by simpa using quote) (by simpa using escape) read

/-- Inside of a string its quote is open, and only its quote closes it. -/
theorem string_step {nest : Nest} {quote : Char} (inside : nest.quote = some quote) (whole : nest.escaped = false)
    (start : Place) :
    (c = '\\' → Agrees (nest.step c) (.stringEscape quote start)) ∧
      (c ≠ '\\' → c = quote → Agrees (nest.step c) .plain) ∧
      (c ≠ '\\' → c ≠ quote → Agrees (nest.step c) (.string quote start)) := by
  refine ⟨?_, ?_, ?_⟩
  · rintro rfl
    simp [Agrees, Nest.step, inside, whole]
  · rintro escape rfl
    simp [Agrees, Bare, Nest.step, inside, whole, escape]
  · intro escape other
    simp [Agrees, Nest.step, inside, whole, escape, other]

theorem Holds.told {mode : ReadMode} (holds : Holds loose reader rest) (same : reader.mode = mode)
    (other : ∀ depth start, mode ≠ .interpolation depth start) :
    (loose ∧ Mixed reader.level.item.reverse) ∨ Agrees (Nest.read {} reader.level.item.reverse) mode := by
  rcases holds.item with mixed | agrees | opening
  · exact Or.inl mixed
  · exact Or.inr (same ▸ agrees)
  · obtain ⟨depth, start, found⟩ := opening.mode
    exact absurd (same.symm.trans found) (other depth start)

/-- Behind one more character an item stays mixed, or is read one step further. -/
theorem kept_cases {mode mode' : ReadMode} (told : (loose ∧ Mixed item.reverse) ∨ Agrees (Nest.read {} item.reverse) mode)
    (step : Agrees (Nest.read {} item.reverse) mode → Agrees ((Nest.read {} item.reverse).step c) mode') :
    (loose ∧ Mixed (c :: item).reverse) ∨ Agrees (Nest.read {} (c :: item).reverse) mode' := by
  rcases told with mixed | agrees
  · exact Or.inl (mixed.imp_right (·.keep c))
  · rw [List.reverse_cons, read_snoc]
    exact Or.inr (step agrees)

theorem Holds.interpolated (holds : Holds loose reader (c :: rest)) {depth : Nat} {start : Place}
    (mode : reader.mode = .interpolation depth start) : loose ∧ Mixed (c :: reader.level.item).reverse := by
  rcases holds.item with mixed | agrees | opening
  · exact mixed.imp_right (·.keep c)
  · rw [mode] at agrees
    cases agrees
  · obtain ⟨item, hash⟩ := List.head?_eq_some_iff.mp opening.item
    obtain rfl := Option.some.inj opening.rest
    rw [hash]
    exact ⟨opening.loose, item.reverse, [], by simp⟩

theorem Holds.read {lineComments : Bool} (holds : Holds loose reader (c :: rest))
    (read : reader.read lineComments c rest.head? = .ok after)
    (known : ∀ depth start, after.mode = .interpolation depth start → loose) : Holds loose after rest := by
  have kept : ∀ mode, (loose ∧ Mixed (c :: reader.level.item).reverse) ∨
      Agrees (Nest.read {} (c :: reader.level.item).reverse) mode →
        Holds loose { reader with level := reader.level.keep c, mode } rest := fun mode fits =>
    holds.onward reader.level.parens (fits.imp_right Or.inl)
  have same : ∀ mode, (loose ∧ Mixed reader.level.item.reverse) ∨ Agrees (Nest.read {} reader.level.item.reverse) mode →
      Holds loose { reader with mode } rest := fun mode fits =>
    holds.onward reader.level.parens (fits.imp_right Or.inl)
  cases mode : reader.mode <;> simp only [SheetReader.read, mode] at read
  case plain => exact holds.readPlain mode read known
  case commentMark start =>
    have calm : Calm loose reader.level.item := holds.told mode (by simp)
    cases read
    exact same _ calm
  case comment start =>
    have calm : Calm loose reader.level.item := holds.told mode (by simp)
    cases read
    split
    · exact same _ calm
    · exact same reader.mode (by rw [mode]; exact calm)
  case commentEnd =>
    have calm : Calm loose reader.level.item := holds.told mode (by simp)
    cases read
    exact same _ calm
  case lineComment =>
    have calm : Calm loose reader.level.item := holds.told mode (by simp)
    split at read
    · have fresh : Holds loose { reader with mode := .plain } (c :: rest) := ⟨calm.imp_right Or.inl, holds.own, holds.outer⟩
      exact fresh.readPlain rfl read known
    · cases read
      exact same reader.mode (by rw [mode]; exact calm)
  case string quote start =>
    have told := holds.told mode (by simp)
    split_ifs at read with escape close line
    · cases read
      exact kept _ (kept_cases told fun inside => (string_step inside.1 inside.2 start).1 (by simpa using escape))
    · cases read
      exact kept _ (kept_cases told fun inside =>
        (string_step inside.1 inside.2 start).2.1 (by simpa using escape) (by simpa using close))
    · cases read
      have fits := kept_cases told fun inside =>
        (string_step inside.1 inside.2 start).2.2 (by simpa using escape) (by simpa using close)
      exact kept _ fits
  case stringEscape quote start =>
    cases read
    exact kept _ (kept_cases (holds.told mode (by simp)) fun inside => by simp [Agrees, Nest.step, inside.1, inside.2])
  case escape =>
    cases read
    exact kept _ (kept_cases (holds.told mode (by simp)) fun inside => by simp [Agrees, Bare, Nest.step, inside.1, inside.2])
  case interpolation depth start =>
    have mixed := holds.interpolated mode
    split_ifs at read
    all_goals
      cases read
      exact holds.onward reader.level.parens (Or.inl mixed)

theorem Holds.step {lineComments : Bool} (holds : Holds loose reader (c :: rest))
    (stepped : reader.step lineComments c rest.head? = .ok after)
    (known : ∀ depth start, after.mode = .interpolation depth start → loose) : Holds loose after rest := by
  obtain ⟨moved, read, rfl⟩ := read_of_step stepped
  have onward := holds.read read known
  exact ⟨onward.item, onward.own, onward.outer⟩

theorem Holds.run {lineComments : Bool} (holds : Holds True reader rest) (ran : reader.run lineComments rest = .ok after) :
    Holds True after [] :=
  run_keeps (fun kept stepped => kept.step stepped fun _ _ _ => trivial) holds ran

theorem holds_initial (loose : Prop) (source : Text) : Holds loose {} source :=
  ⟨Or.inr (Or.inl ⟨rfl, rfl⟩), ⟨nofun, nofun⟩, nofun⟩

theorem flush_blocks (level : Level) : level.flush.blocks = level.blocks := by
  unfold Level.flush
  split <;> rfl

theorem Holds.found {findings : Findings} (holds : Holds loose reader rest) (found : reader.finish = .ok findings) :
    ∀ block ∈ blocksIn findings.blocks, ∀ raw ∈ block.declarations, Sealed loose raw.text := by
  have blocks : findings.blocks = reader.level.blocks.reverse := by
    unfold SheetReader.finish at found
    split at found
    case h_1 | h_2 | h_3 | h_4 | h_5 => cases found
    all_goals
      split at found
      · cases found
      · cases found
        exact congrArg List.reverse (flush_blocks reader.level)
  intro block member
  rw [blocks] at member
  exact holds.own.blocks block (mem_blocksIn_reverse.mp member)

/-- No declaration of a block leaves a quote open, unless it holds an interpolation. -/
theorem declarations_shut {dialect : Dialect} {source : Text} {findings : Findings}
    (found : Findings.read dialect source = .ok findings) :
    ∀ block ∈ blocksIn findings.blocks, ∀ raw ∈ block.declarations, Shut raw.text := by
  unfold Findings.read at found
  split at found
  · cases found
  next reader ran =>
    have holds := (holds_initial True source).run ran
    intro block member raw inside
    exact (holds.found found block member raw inside).imp_left And.right

end Readers

end CascadeLens.Proofs.DeclarationQuotes
