import CascadeLens.Proofs.TextShape
import CascadeLens.Proofs.SheetWriting

/-! How a sheet reader moves over text that begins no string, escape or comment: a level that is read
takes it in up to the next semicolon or brace, and a level that is passed over counts its braces. -/

namespace CascadeLens.Proofs.SheetSteps
open Text TextShape SheetWriting

/-- Characters that no item keeps without more ado. -/
def structural : List Char := '(' :: ')' :: '#' :: '\x7b' :: '\x7d' :: ';' :: masking

def behind (here : Place) (s : Text) : Place := s.foldl Place.after here

@[simp] theorem behind_nil (here : Place) : behind here [] = here := rfl

@[simp] theorem behind_cons (here : Place) (c : Char) (rest : Text) :
    behind here (c :: rest) = behind (here.after c) rest := rfl

theorem behind_append (here : Place) (s t : Text) : behind here (s ++ t) = behind (behind here s) t :=
  List.foldl_append

theorem behind_offset (here : Place) (s : Text) : (behind here s).offset = here.offset + s.length := by
  induction s generalizing here with
  | nil => rfl
  | cons c rest ih =>
    rw [behind_cons, ih, List.length_cons, Place.after]
    split <;> dsimp only <;> omega

theorem behind_line (here : Place) (s : Text) : (behind here s).line = here.line + s.count '\n' := by
  induction s generalizing here with
  | nil => rfl
  | cons c rest ih =>
    rw [behind_cons, ih, List.count_cons, Place.after]
    split <;> dsimp only <;> omega

section Steps

variable {lineComments : Bool} {reader after : SheetReader} {c : Char} {rest : Text}

theorem run_step (stepped : reader.step lineComments c rest.head? = .ok after) :
    reader.run lineComments (c :: rest) = after.run lineComments rest := by
  simp only [SheetReader.run, stepped]

theorem read_of_step {next : Option Char} (stepped : reader.step lineComments c next = .ok after) :
    ∃ moved, reader.read lineComments c next = .ok moved ∧ after = { moved with here := reader.here.after c } := by
  cases read : reader.read lineComments c next with
  | error fault => simp [SheetReader.step, read, Except.map] at stepped
  | ok moved =>
    rw [SheetReader.step, read] at stepped
    exact ⟨moved, rfl, (Except.ok.inj stepped).symm⟩

theorem steps_of_run (run : reader.run lineComments (c :: rest) = .ok after) :
    ∃ moved, reader.step lineComments c rest.head? = .ok moved ∧ moved.run lineComments rest = .ok after := by
  cases stepped : reader.step lineComments c rest.head? with
  | error fault => simp [SheetReader.run, stepped] at run
  | ok moved =>
    rw [run_step stepped] at run
    exact ⟨moved, rfl, run⟩

/-- What every step keeps of a reader and of the text that is left is kept up to the end of a run. -/
theorem run_keeps {P : SheetReader → Text → Prop}
    (keeps : ∀ {reader after : SheetReader} {c : Char} {rest : Text}, P reader (c :: rest) →
      reader.step lineComments c rest.head? = .ok after → P after rest)
    (start : P reader rest) (run : reader.run lineComments rest = .ok after) : P after [] := by
  induction rest generalizing reader with
  | nil =>
    obtain rfl := Except.ok.inj run
    exact start
  | cons c rest ih =>
    obtain ⟨moved, stepped, later⟩ := steps_of_run run
    exact ih (keeps start stepped) later

/-- The reader with a character noted as the first of an item if it is. -/
def noting (reader : SheetReader) (c : Char) : SheetReader :=
  { reader with level := reader.level.begin reader.here c }

private theorem noted_kind (level : Level) (here : Place) (c : Char) : (level.begin here c).kind = level.kind := by
  unfold Level.begin
  split <;> rfl

theorem noted_start (level : Level) (here : Place) (c : Char) : (level.begin here c).start = level.start := by
  unfold Level.begin
  split <;> rfl

theorem step_passed {next : Option Char} {depth : Nat} {keep : Option AtRule} (plain : reader.mode = .plain)
    (kind : reader.level.kind = .passed depth keep) (bare : c ∉ masking) :
    reader.step lineComments c next =
      .ok { (noting reader c).passOver depth keep c with here := reader.here.after c } := by
  simp only [masking, List.mem_cons, List.not_mem_nil, or_false, not_or] at bare
  obtain ⟨double, single, escape, slash⟩ := bare
  simp [SheetReader.step, SheetReader.read, plain, SheetReader.readPlain, slash, isQuote, double, single, escape,
    noted_kind, kind, Except.map, noting]

/-- A character of a level that is read, unless it begins an interpolation. -/
theorem step_taken (plain : reader.mode = .plain) (read : reader.level.isPassed = false) (bare : c ∉ masking)
    (calm : c = '#' → rest.head? ≠ some '\x7b') (taken : (noting reader c).takeIn c = .ok after) :
    reader.step lineComments c rest.head? = .ok { after with here := reader.here.after c } := by
  simp only [masking, List.mem_cons, List.not_mem_nil, or_false, not_or] at bare
  obtain ⟨double, single, escape, slash⟩ := bare
  have settled : (c == '#' && rest.head? == some '\x7b') = false := by
    by_cases hash : c = '#'
    · simp [calm hash]
    · simp [hash]
  have goes : reader.readPlain lineComments c rest.head? = (noting reader c).takeIn c := by
    unfold Level.isPassed at read
    simp only [SheetReader.readPlain, noted_kind, settled]
    cases kind : reader.level.kind <;> simp_all [noting, isQuote]
  simp [SheetReader.step, SheetReader.read, plain, goes, taken, Except.map]

theorem run_taken {begun : SheetReader} (plain : reader.mode = .plain) (read : reader.level.isPassed = false)
    (bare : c ∉ masking) (calm : c = '#' → rest.head? ≠ some '\x7b') (noted : noting reader c = begun)
    (taken : begun.takeIn c = .ok after) :
    reader.run lineComments (c :: rest) = { after with here := reader.here.after c }.run lineComments rest := by
  subst noted
  exact run_step (step_taken plain read bare calm taken)

end Steps

def keeping (level : Level) (s : Text) (parens : Nat) : Level :=
  { level with item := s.reverse ++ level.item, parens }

private theorem takeIn_kept {reader : SheetReader} {c : Char} {parens : Nat} (bare : c ∉ ['\x7b', '\x7d', ';'])
    (balance : balanceStep '(' ')' reader.level.parens c = some parens) :
    reader.takeIn c = .ok { reader with level := keeping reader.level [c] parens } := by
  simp only [List.mem_cons, List.not_mem_nil, or_false, not_or] at bare
  obtain ⟨opener, closer, semicolon⟩ := bare
  unfold balanceStep at balance
  unfold SheetReader.takeIn
  by_cases opens : c = '('
  · subst opens
    simp_all [keeping, Level.keep]
  · by_cases closes : c = ')'
    · subst closes
      cases depth : reader.level.parens <;> simp_all [keeping, Level.keep]
    · simp_all [keeping, Level.keep]

/-- Inside an item a hash stands before no brace. -/
private theorem hash_before_item {c : Char} {s rest : Text} (last : (c :: s).getLast? ≠ some '#')
    (bare : ∀ d ∈ s, d ∉ '\x7b' :: '\x7d' :: ';' :: masking) : c = '#' → (s ++ rest).head? ≠ some '\x7b' := by
  intro hash
  cases s with
  | nil => exact absurd (congrArg some hash) last
  | cons d s =>
    intro brace
    obtain rfl := Option.some.inj brace
    exact bare '\x7b' List.mem_cons_self List.mem_cons_self

private theorem last_tail {c : Char} {s : Text} (last : (c :: s).getLast? ≠ some '#') : s.getLast? ≠ some '#' := by
  cases s with
  | nil => simp
  | cons d s => rwa [List.getLast?_cons_cons] at last

/-- A level that is read keeps text without semicolons and braces, once the item has begun. -/
theorem run_kept {lineComments : Bool} {reader : SheetReader} {start : Place} {s rest : Text} {parens : Nat}
    (plain : reader.mode = .plain) (read : reader.level.isPassed = false) (begun : reader.level.itemStart = some start)
    (bare : ∀ c ∈ s, c ∉ '\x7b' :: '\x7d' :: ';' :: masking) (last : s.getLast? ≠ some '#')
    (balance : balanceFrom '(' ')' reader.level.parens s = some parens) :
    reader.run lineComments (s ++ rest) =
      { reader with here := behind reader.here s, level := keeping reader.level s parens }.run lineComments rest := by
  -- The parentheses open in the level are the balance of what it has kept so far.
  induction s generalizing reader with
  | nil =>
    obtain rfl := Option.some.inj balance
    rfl
  | cons c s ih =>
    obtain ⟨own, others⟩ := List.forall_mem_cons.mp bare
    obtain ⟨middle, first, later⟩ := Option.bind_eq_some_iff.mp balance
    have noted : noting reader c = reader := by
      simp [noting, Level.begin, begun]
    have taken : reader.takeIn c = .ok { reader with level := keeping reader.level [c] middle } :=
      takeIn_kept (by simp_all) first
    rw [List.cons_append, run_taken plain read (by simp_all) (hash_before_item last others) noted taken]
    have onward := @ih { reader with here := reader.here.after c, level := keeping reader.level [c] middle }
      plain read begun others (last_tail last) later
    rw [onward]
    simp [keeping]

/-- Text that a level keeps as one item, up to a semicolon or a brace. -/
structure Kept (s : Text) : Prop where
  filled : s ≠ []
  trimmed : Trimmed s
  bare : ∀ c ∈ s, c ∉ '\x7b' :: '\x7d' :: ';' :: masking
  parens : Paired '(' ')' s
  last : s.getLast? ≠ some '#'

/-- A level that is read, between two items. -/
structure Resting (level : Level) : Prop where
  read : level.isPassed = false
  item : level.item = []
  itemStart : level.itemStart = none
  parens : level.parens = 0

structure Ready (reader : SheetReader) : Prop where
  plain : reader.mode = .plain
  resting : Resting reader.level

def holding (level : Level) (here : Place) (s : Text) : Level :=
  { level with item := s.reverse, itemStart := some here }

def held (reader : SheetReader) (s : Text) : SheetReader :=
  { reader with here := behind reader.here s, level := holding reader.level reader.here s }

section Levels

variable {level : Level} {s : Text}

theorem noting_held (reader : SheetReader) (s : Text) (c : Char) : noting (held reader s) c = held reader s := by
  simp [noting, held, holding, Level.begin]

theorem Resting.clear_holding (resting : Resting level) (here : Place) (s : Text) :
    (holding level here s).clear = level := by
  obtain ⟨_, _, _, _, _, item, itemStart, _⟩ := level
  obtain rfl : item = [] := resting.item
  obtain rfl : itemStart = none := resting.itemStart
  rfl

theorem Resting.flush (resting : Resting level) (itemStart : Option Place) :
    { level with itemStart }.flush = level := by
  obtain ⟨_, _, _, _, _, item, begun, _⟩ := level
  obtain rfl : item = [] := resting.item
  obtain rfl : begun = none := resting.itemStart
  cases itemStart <;> rfl

theorem trim_holding (kept : Kept s) (here : Place) : trim (holding level here s).item.reverse = s := by
  rw [holding, List.reverse_reverse, trim_eq_self kept.trimmed]

theorem Resting.flush_holding (resting : Resting level) (kept : Kept s) (here : Place) :
    (holding level here s).flush = { level with declarations := ⟨s, here.line⟩ :: level.declarations } := by
  obtain ⟨c, letters, rfl⟩ := List.exists_cons_of_ne_nil kept.filled
  unfold Level.flush
  rw [trim_holding kept, resting.clear_holding]
  rfl

end Levels

section Items

variable {lineComments : Bool} {reader : SheetReader} {s : Text}

theorem run_item (ready : Ready reader) (kept : Kept s) (rest : Text) :
    reader.run lineComments (s ++ rest) = (held reader s).run lineComments rest := by
  obtain ⟨c, letters, rfl⟩ := List.exists_cons_of_ne_nil kept.filled
  obtain ⟨own, others⟩ := List.forall_mem_cons.mp kept.bare
  have balance := kept.parens
  rw [Paired, ← ready.resting.parens] at balance
  obtain ⟨middle, first, later⟩ := Option.bind_eq_some_iff.mp balance
  have noted : noting reader c = { reader with level := { reader.level with itemStart := some reader.here } } := by
    simp [noting, Level.begin, ready.resting.itemStart, kept.trimmed.first c rfl]
  have taken := @takeIn_kept { reader with level := { reader.level with itemStart := some reader.here } } c middle
    (by simp_all) first
  have calm := @hash_before_item c letters rest kept.last others
  rw [List.cons_append, run_taken ready.plain ready.resting.read (by simp_all) calm noted taken]
  have onward := @run_kept lineComments
    { reader with here := reader.here.after c, level := keeping { reader.level with itemStart := some reader.here } [c] middle }
    reader.here letters rest 0 ready.plain ready.resting.read rfl others (last_tail kept.last)
    (by rw [← ready.resting.parens]; exact later)
  rw [onward]
  have settled : keeping (keeping { reader.level with itemStart := some reader.here } [c] middle) letters 0 =
      holding reader.level reader.here (c :: letters) := by
    simp [keeping, holding, ready.resting.item, ready.resting.parens]
  rw [settled]
  rfl


theorem run_declaration (ready : Ready reader) (kept : Kept s) (rest : Text) :
    reader.run lineComments (s ++ ';' :: rest) =
      { reader with
        here := behind reader.here (s ++ [';'])
        level := { reader.level with declarations := ⟨s, reader.here.line⟩ :: reader.level.declarations } }.run
        lineComments rest := by
  have taken : (held reader s).takeIn ';' = .ok { held reader s with level := (held reader s).level.flush } := by
    simp [SheetReader.takeIn, held, holding, ready.resting.parens]
  have onward := @run_taken lineComments (held reader s) _ ';' rest _ ready.plain ready.resting.read (by decide)
    (by simp) (noting_held reader s ';') taken
  rw [run_item ready kept, onward, behind_append]
  simp only [held, ready.resting.flush_holding kept, behind_cons, behind_nil]

def opened (reader : SheetReader) (prelude : Text) : SheetReader :=
  let level := (holding reader.level reader.here prelude).inner (behind reader.here prelude) reader.count
  { reader with
    here := behind reader.here (prelude ++ ['\x7b'])
    level
    outer := reader.level :: reader.outer
    count := if level.inStyle then reader.count + 1 else reader.count }

theorem run_held_opening (ready : Ready reader) (s rest : Text) :
    (held reader s).run lineComments ('\x7b' :: rest) = (opened reader s).run lineComments rest := by
  have taken : (held reader s).takeIn '\x7b' = .ok (held reader s).enter := by
    simp [SheetReader.takeIn, held, holding, ready.resting.parens]
  have onward := @run_taken lineComments (held reader s) _ '\x7b' rest _ ready.plain ready.resting.read (by decide)
    (by simp) (noting_held reader s '\x7b') taken
  rw [onward]
  simp only [SheetReader.enter, held, ready.resting.clear_holding, opened, behind_append, behind_cons, behind_nil]
  rfl

theorem run_opening (ready : Ready reader) (kept : Kept s) (rest : Text) :
    reader.run lineComments (s ++ '\x7b' :: rest) = (opened reader s).run lineComments rest := by
  rw [run_item ready kept, run_held_opening ready]

theorem run_closing {around : Level} {outer : List Level} (ready : Ready reader) (within : reader.outer = around :: outer)
    (rest : Text) :
    reader.run lineComments ('\x7d' :: rest) =
      { reader with
        here := reader.here.after '\x7d'
        level := reader.level.close around reader.here
        outer }.run lineComments rest := by
  have noted : noting reader '\x7d' = { reader with level := { reader.level with itemStart := some reader.here } } := by
    simp [noting, Level.begin, ready.resting.itemStart, show isBlank '\x7d' = false by decide]
  have left : { reader with level := { reader.level with itemStart := some reader.here } }.leave =
      .ok { reader with level := reader.level.close around reader.here, outer } := by
    simp only [SheetReader.leave, within, ready.resting.flush]
  have taken : { reader with level := { reader.level with itemStart := some reader.here } }.takeIn '\x7d' =
      { reader with level := { reader.level with itemStart := some reader.here } }.leave := by
    simp [SheetReader.takeIn, ready.resting.parens]
  rw [run_taken ready.plain ready.resting.read (by decide) (by simp) noted (taken.trans left)]

/-- A closing brace ends the declaration before it as well. -/
theorem run_last_declaration {around : Level} {outer : List Level} (ready : Ready reader) (kept : Kept s)
    (within : reader.outer = around :: outer) (rest : Text) :
    reader.run lineComments (s ++ '\x7d' :: rest) =
      { reader with
        here := behind reader.here (s ++ ['\x7d'])
        level := { reader.level with declarations := ⟨s, reader.here.line⟩ :: reader.level.declarations }.close around
          (behind reader.here s)
        outer }.run lineComments rest := by
  have left : (held reader s).takeIn '\x7d' = .ok { held reader s with
      level := { reader.level with declarations := ⟨s, reader.here.line⟩ :: reader.level.declarations }.close around
        (behind reader.here s)
      outer } := by
    simp only [SheetReader.takeIn, SheetReader.leave, held, within, ready.resting.flush_holding kept]
    simp [holding, ready.resting.parens]
  have onward := @run_taken lineComments (held reader s) _ '\x7d' rest _ ready.plain ready.resting.read (by decide)
    (by simp) (noting_held reader s '\x7d') left
  rw [run_item ready kept, onward, behind_append]
  rfl

private theorem passOver_counted {depth middle : Nat} {keep : Option AtRule} {c : Char}
    (kind : reader.level.kind = .passed depth keep) (balance : balanceStep '\x7b' '\x7d' depth c = some middle) :
    ∃ level : Level, level.kind = .passed middle keep ∧ level.start = reader.level.start ∧
      reader.passOver depth keep c = { reader with level } := by
  unfold balanceStep at balance
  by_cases opens : c = '\x7b'
  · obtain rfl : depth + 1 = middle := by simpa [opens] using balance
    subst opens
    exact ⟨{ reader.level with kind := .passed (depth + 1) keep }, rfl, rfl, rfl⟩
  by_cases closes : c = '\x7d'
  · subst closes
    cases depth with
    | zero => cases balance
    | succ depth =>
      obtain rfl := Option.some.inj balance
      exact ⟨{ reader.level with kind := .passed depth keep }, rfl, rfl, rfl⟩
  obtain rfl : depth = middle := by simpa [opens, closes] using balance
  unfold SheetReader.passOver
  by_cases inward : c = '('
  · exact ⟨{ reader.level with parens := reader.level.parens + 1 }, kind, rfl, by simp [inward]⟩
  by_cases outward : c = ')'
  · exact ⟨{ reader.level with parens := reader.level.parens - 1 }, kind, rfl, by simp [outward]⟩
  exact ⟨reader.level, kind, rfl, by simp [opens, closes, inward, outward]⟩

/-- A block that is passed over counts its braces, wherever they stand. -/
theorem run_passed {depth left : Nat} {keep : Option AtRule} (plain : reader.mode = .plain)
    (kind : reader.level.kind = .passed depth keep) (bare : ∀ c ∈ s, c ∉ masking)
    (balance : balanceFrom '\x7b' '\x7d' depth s = some left) (rest : Text) :
    ∃ level : Level, level.kind = .passed left keep ∧ level.start = reader.level.start ∧
      reader.run lineComments (s ++ rest) =
        { reader with here := behind reader.here s, level }.run lineComments rest := by
  -- The number of braces open is part of the kind, so the level changes with every brace.
  induction s generalizing reader depth with
  | nil =>
    obtain rfl := Option.some.inj balance
    exact ⟨reader.level, kind, rfl, rfl⟩
  | cons c s ih =>
    obtain ⟨own, others⟩ := List.forall_mem_cons.mp bare
    obtain ⟨middle, first, later⟩ := Option.bind_eq_some_iff.mp balance
    have noted : (noting reader c).level.kind = .passed depth keep := (noted_kind _ _ _).trans kind
    obtain ⟨level, counted, same, passed⟩ := passOver_counted noted first
    have stepped : reader.step lineComments c (s ++ rest).head? =
        .ok { reader with level, here := reader.here.after c } := by
      rw [step_passed plain kind own, passed]
      rfl
    obtain ⟨last, known, started, onward⟩ :=
      @ih { reader with level, here := reader.here.after c } middle plain counted others later
    refine ⟨last, known, started.trans (same.trans (noted_start _ _ _)), ?_⟩
    rw [List.cons_append, run_step stepped, onward, behind_cons]

end Items

end CascadeLens.Proofs.SheetSteps
