import CascadeLens.Proofs.SheetRelocation

/-! Where a text can be cut in two: between two items of the sheet, with nothing but blanks and comments before the
cut. A reader that has come there holds blanks only, and no lookahead reaches across. -/

namespace CascadeLens.Proofs.SheetSeam
open Text SheetWriting SheetSteps SheetRelocation

/-- The outermost of some levels is that of the sheet. -/
def Bottom : Level → List Level → Prop
  | level, [] => level.kind = .sheet ∧ level.atRules = []
  | _, around :: outer => Bottom around outer

def commenting : ReadMode → Bool
  | .commentMark _ | .comment _ | .commentEnd => true
  | _ => false

/-- What holds of a reader that has read a text from its beginning up to some offset. -/
structure Grounded (reader : SheetReader) (bound : Nat) : Prop where
  bottom : Bottom reader.level reader.outer
  kept : ∀ block ∈ reader.keyframes ++ reader.properties, block.stop ≤ bound
  /-- A comment leaves a blank in the item. -/
  marked : commenting reader.mode = true → reader.level.item ≠ []

section Grounds

variable {reader after : SheetReader} {bound bound' : Nat} {c : Char}

theorem Bottom.update {level next : Level} {outer : List Level} (bottom : Bottom level outer) (kind : next.kind = level.kind)
    (atRules : next.atRules = level.atRules) : Bottom next outer := by
  cases outer with
  | nil => exact ⟨kind.trans bottom.1, atRules.trans bottom.2⟩
  | cons around outer => exact bottom

/-- A level that is passed over is not that of the sheet. -/
theorem Bottom.passed {level : Level} {outer : List Level} {depth : Nat} {keep : Option AtRule} (bottom : Bottom level outer)
    (kind : level.kind = .passed depth keep) (next : Level) : Bottom next outer := by
  cases outer with
  | nil => cases kind.symm.trans bottom.1
  | cons around outer => exact bottom

theorem Grounded.widen (grounded : Grounded reader bound) (later : bound ≤ bound') : Grounded reader bound' :=
  { grounded with kept := fun block member => Nat.le_trans (grounded.kept block member) later }

/-- A reader that goes on on the same level. -/
theorem Grounded.stay (grounded : Grounded reader bound) {level : Level} {mode : ReadMode} (kind : level.kind = reader.level.kind)
    (atRules : level.atRules = reader.level.atRules) (marked : commenting mode = true → level.item ≠ []) :
    Grounded { reader with level, mode } (bound + 1) :=
  ⟨grounded.bottom.update kind atRules, (grounded.widen (Nat.le_succ bound)).kept, marked⟩

theorem Grounded.keep (grounded : Grounded reader bound) (c : Char) (mode : ReadMode) :
    Grounded { reader with level := reader.level.keep c, mode } (bound + 1) :=
  grounded.stay rfl rfl fun _ => List.cons_ne_nil _ _

theorem begin_same (level : Level) (here : Place) (c : Char) :
    (level.begin here c).kind = level.kind ∧ (level.begin here c).atRules = level.atRules ∧
      (level.begin here c).item = level.item := by
  unfold Level.begin
  split <;> exact ⟨rfl, rfl, rfl⟩

theorem flush_same (level : Level) : level.flush.kind = level.kind ∧ level.flush.atRules = level.atRules := by
  unfold Level.flush
  split <;> exact ⟨rfl, rfl⟩

theorem close_same (level around : Level) (here : Place) :
    (level.close around here).kind = around.kind ∧ (level.close around here).atRules = around.atRules := by
  unfold Level.close
  split <;> exact ⟨rfl, rfl⟩

theorem Grounded.noting (grounded : Grounded reader bound) (c : Char) : Grounded (noting reader c) bound := by
  obtain ⟨kind, atRules, item⟩ := begin_same reader.level reader.here c
  exact ⟨grounded.bottom.update kind atRules, grounded.kept, fun comment => item ▸ grounded.marked comment⟩

private theorem silent {mode : ReadMode} {item : Text} (still : commenting mode = false) : commenting mode = true → item ≠ [] :=
  fun comment => nomatch still.symm.trans comment

theorem Grounded.leavePassed (grounded : Grounded reader bound) (here : reader.here.offset = bound)
    (still : commenting reader.mode = false) (keep : Option AtRule) :
    Grounded (reader.leavePassed keep) (bound + 1) := by
  have bottom := grounded.bottom
  have kept := (grounded.widen (Nat.le_succ bound)).kept
  unfold SheetReader.leavePassed
  cases outer : reader.outer with
  | nil => exact grounded.widen (Nat.le_succ bound)
  | cons around more =>
    rw [outer] at bottom
    cases keep with
    | none => exact ⟨bottom, kept, silent still⟩
    | some rule =>
      dsimp only
      split
      · refine ⟨bottom, ?_, silent still⟩
        intro block member
        rcases List.mem_append.mp member with before | now
        · exact kept block (List.mem_append_left _ before)
        · rcases List.mem_cons.mp now with rfl | before
          · exact Nat.le_of_eq (congrArg (· + 1) here)
          · exact kept block (List.mem_append_right _ before)
      · refine ⟨bottom, ?_, silent still⟩
        intro block member
        rcases List.mem_cons.mp member with rfl | before
        · exact Nat.le_of_eq (congrArg (· + 1) here)
        · exact kept block before

theorem Grounded.passOver (grounded : Grounded reader bound) (here : reader.here.offset = bound)
    (still : commenting reader.mode = false) {depth : Nat} {keep : Option AtRule} (kind : reader.level.kind = .passed depth keep)
    (c : Char) : Grounded (reader.passOver depth keep c) (bound + 1) := by
  have deeper : ∀ depth, Grounded { reader with level := { reader.level with kind := .passed depth keep } } (bound + 1) :=
    fun _ => ⟨grounded.bottom.passed kind _, (grounded.widen (Nat.le_succ bound)).kept, silent still⟩
  unfold SheetReader.passOver
  dsimp only
  split_ifs
  · exact grounded.stay rfl rfl (silent still)
  · exact grounded.stay rfl rfl (silent still)
  · exact deeper (depth + 1)
  · cases depth with
    | zero => exact grounded.leavePassed here still keep
    | succ depth => exact deeper depth
  · exact grounded.widen (Nat.le_succ bound)

theorem Grounded.takeIn (grounded : Grounded reader bound) (still : commenting reader.mode = false)
    (taken : reader.takeIn c = .ok after) : Grounded after (bound + 1) := by
  have kept := (grounded.widen (Nat.le_succ bound)).kept
  unfold SheetReader.takeIn at taken
  dsimp only at taken
  split_ifs at taken
  · cases taken
    exact grounded.stay rfl rfl (silent still)
  · cases taken
    exact grounded.stay rfl rfl (silent still)
  · cases taken
    obtain ⟨kind, atRules⟩ := flush_same reader.level
    exact grounded.stay kind atRules (silent still)
  · cases taken
    exact ⟨grounded.bottom.update rfl rfl, kept, silent still⟩
  · unfold SheetReader.leave at taken
    have bottom := grounded.bottom
    cases outer : reader.outer with
    | nil => simp [outer] at taken
    | cons around more =>
      rw [outer] at taken bottom
      cases taken
      obtain ⟨kind, atRules⟩ := close_same reader.level.flush around reader.here
      exact ⟨Bottom.update bottom kind atRules, kept, silent still⟩
  · cases taken
    exact grounded.keep c _

theorem Grounded.readPlain {lineComments : Bool} {next : Option Char} (grounded : Grounded reader bound)
    (here : reader.here.offset = bound) (plain : reader.mode = .plain)
    (read : reader.readPlain lineComments c next = .ok after) : Grounded after (bound + 1) := by
  have still : commenting reader.mode = false := by rw [plain]; rfl
  have noted := grounded.noting c
  unfold SheetReader.readPlain at read
  dsimp only at read
  split_ifs at read
  · cases read
    exact grounded.keep ' ' _
  · cases read
    exact grounded.stay rfl rfl nofun
  · cases read
    exact noted.keep c _
  · cases read
    exact noted.keep c _
  · split at read
    next depth keep kind =>
      cases read
      exact noted.passOver here still kind c
    next =>
      cases read
      exact noted.keep c _
  · split at read
    next depth keep kind =>
      cases read
      exact noted.passOver here still kind c
    next => exact noted.takeIn still read

theorem Grounded.read {lineComments : Bool} {next : Option Char} (grounded : Grounded reader bound)
    (here : reader.here.offset = bound) (read : reader.read lineComments c next = .ok after) : Grounded after (bound + 1) := by
  have marked := grounded.marked
  cases mode : reader.mode <;> simp only [SheetReader.read, mode] at read <;> rw [mode] at marked
  case plain => exact grounded.readPlain here mode read
  case commentMark =>
    cases read
    exact grounded.stay rfl rfl fun _ => marked rfl
  case comment =>
    cases read
    split
    · exact grounded.stay rfl rfl fun _ => marked rfl
    · exact grounded.widen (Nat.le_succ bound)
  case commentEnd =>
    cases read
    exact grounded.stay rfl rfl (silent rfl)
  case lineComment =>
    split at read
    · have fresh : Grounded { reader with mode := .plain } bound := ⟨grounded.bottom, grounded.kept, silent rfl⟩
      exact fresh.readPlain here rfl read
    · cases read
      exact grounded.widen (Nat.le_succ bound)
  case string =>
    split_ifs at read
    all_goals
      cases read
      exact grounded.keep c _
  case interpolation =>
    split_ifs at read
    all_goals
      cases read
      exact grounded.keep c _
  all_goals
    cases read
    exact grounded.keep c _

theorem Grounded.step {lineComments : Bool} {next : Option Char} (grounded : Grounded reader reader.here.offset)
    (stepped : reader.step lineComments c next = .ok after) : Grounded after after.here.offset := by
  obtain ⟨moved, read, rfl⟩ := read_of_step stepped
  have onward := grounded.read rfl read
  have offset : (reader.here.after c).offset = reader.here.offset + 1 := behind_offset reader.here [c]
  rw [offset]
  exact ⟨onward.bottom, onward.kept, onward.marked⟩

theorem Grounded.run {lineComments : Bool} {s : Text} (grounded : Grounded reader reader.here.offset)
    (run : reader.run lineComments s = .ok after) : Grounded after after.here.offset :=
  run_keeps (P := fun reader _ => Grounded reader reader.here.offset) (fun kept stepped => kept.step stepped) grounded run

theorem grounded_initial : Grounded {} 0 := ⟨⟨rfl, rfl⟩, nofun, nofun⟩

end Grounds

/-- A text that ends between two items of the sheet, or has not begun. -/
def Closed (lineComments : Bool) (front : Text) : Prop :=
  ∃ reader, SheetReader.run lineComments {} front = .ok reader ∧ Ready reader ∧ reader.outer = []

instance (lineComments : Bool) (front : Text) : Decidable (Closed lineComments front) :=
  match read : SheetReader.run lineComments {} front with
  | .error _ => isFalse fun ⟨_, run, _⟩ => nomatch read.symm.trans run
  | .ok reader =>
    decidable_of_iff (reader.mode = .plain ∧ reader.level.isPassed = false ∧ reader.level.item = [] ∧
      reader.level.itemStart = none ∧ reader.level.parens = 0 ∧ reader.outer.isEmpty = true) <| by
        constructor
        · rintro ⟨plain, level, item, itemStart, parens, outer⟩
          exact ⟨reader, read, ⟨plain, level, item, itemStart, parens⟩, List.isEmpty_iff.mp outer⟩
        · rintro ⟨_, run, ready, outer⟩
          obtain rfl := Except.ok.inj (read.symm.trans run)
          exact ⟨ready.plain, ready.resting.read, ready.resting.item, ready.resting.itemStart, ready.resting.parens,
            List.isEmpty_iff.mpr outer⟩

section Fronts

variable {lineComments : Bool} {reader after : SheetReader} {bound : Nat} {c : Char} {next : Option Char}

private theorem passOver_closing {depth : Nat} {keep : Option AtRule} (kind : reader.level.kind = .passed depth keep)
    (resting : Resting (reader.passOver depth keep c).level) : c = '\x7d' := by
  by_contra other
  have inside : (reader.passOver depth keep c).level.isPassed = true := by
    simp only [SheetReader.passOver, beq_iff_eq, other, if_false]
    split_ifs <;> simp [Level.isPassed, kind]
  exact absurd (resting.read.symm.trans inside) Bool.false_ne_true

private theorem takeIn_closing (taken : reader.takeIn c = .ok after) (resting : Resting after.level) (outer : after.outer = []) :
    c = ';' ∨ c = '\x7d' := by
  have item := resting.item
  unfold SheetReader.takeIn at taken
  dsimp only at taken
  split_ifs at taken with opens closes ends begins leaves
  · cases taken
    cases item
  · cases taken
    cases item
  · exact Or.inl (by simp_all)
  · cases taken
    cases outer
  · exact Or.inr (by simp_all)
  · cases taken
    cases item

private theorem readPlain_closing (read : reader.readPlain lineComments c next = .ok after) (plain : after.mode = .plain)
    (resting : Resting after.level) (outer : after.outer = []) : c = ';' ∨ c = '\x7d' := by
  have item := resting.item
  unfold SheetReader.readPlain at read
  dsimp only at read
  split_ifs at read
  · cases read
    cases plain
  · cases read
    cases plain
  · cases read
    cases plain
  · cases read
    cases plain
  · split at read
    next depth keep kind =>
      cases read
      exact Or.inr (passOver_closing kind resting)
    next =>
      cases read
      cases plain
  · split at read
    next depth keep kind =>
      cases read
      exact Or.inr (passOver_closing kind resting)
    next => exact takeIn_closing read resting outer

/-- Only behind a semicolon or a brace does a reader come to stand between two items of the sheet. -/
theorem read_closing (grounded : Grounded reader bound) (read : reader.read lineComments c next = .ok after)
    (plain : after.mode = .plain) (resting : Resting after.level) (outer : after.outer = []) : c = ';' ∨ c = '\x7d' := by
  have marked := grounded.marked
  have item := resting.item
  cases mode : reader.mode <;> simp only [SheetReader.read, mode] at read <;> rw [mode] at marked
  case plain => exact readPlain_closing read plain resting outer
  case commentMark =>
    cases read
    cases plain
  case comment =>
    cases read
    split at item
    · exact absurd item (marked rfl)
    · exact absurd item (marked rfl)
  case commentEnd =>
    cases read
    exact absurd item (marked rfl)
  case lineComment =>
    split at read
    · exact readPlain_closing read plain resting outer
    · cases read
      cases mode.symm.trans plain
  case string =>
    split_ifs at read
    all_goals
      cases read
      cases item
  case interpolation =>
    split_ifs at read
    all_goals
      cases read
      cases item
  all_goals
    cases read
    cases item

theorem step_closing (grounded : Grounded reader bound) (stepped : reader.step lineComments c next = .ok after)
    (ready : Ready after) (outer : after.outer = []) : c = ';' ∨ c = '\x7d' := by
  obtain ⟨moved, read, rfl⟩ := read_of_step stepped
  exact read_closing grounded read ready.plain ready.resting outer

/-- A semicolon or a brace is read without a look at what follows. -/
private theorem step_blind (reader : SheetReader) (closing : c = ';' ∨ c = '\x7d') (next next' : Option Char) :
    reader.step lineComments c next = reader.step lineComments c next' := by
  rcases closing with rfl | rfl <;> simp [SheetReader.step, SheetReader.read, SheetReader.readPlain]

/-- What follows a front that is closed is read as if it were read alone. -/
theorem run_front {front : Text} (grounded : Grounded reader reader.here.offset)
    (run : reader.run lineComments front = .ok after) (ready : Ready after) (outer : after.outer = []) (rest : Text) :
    reader.run lineComments (front ++ rest) = after.run lineComments rest := by
  induction front generalizing reader with
  | nil =>
    obtain rfl := Except.ok.inj run
    rfl
  | cons c front ih =>
    obtain ⟨moved, stepped, later⟩ := steps_of_run run
    have ahead : reader.step lineComments c (front ++ rest).head? = .ok moved := by
      cases front with
      | nil =>
        obtain rfl := Except.ok.inj later
        rw [step_blind reader (step_closing grounded stepped ready outer), stepped]
      | cons d front => exact stepped
    rw [List.cons_append, run_step ahead]
    exact ih (grounded.step stepped) later

/-- A text that leaves nothing open ends with the mark that closed its last item. -/
theorem closed_ends {front : Text} (closed : Closed lineComments front) :
    front = [] ∨ front.getLast? = some ';' ∨ front.getLast? = some '\x7d' := by
  obtain ⟨after, run, ready, outer⟩ := closed
  suffices ends : ∀ reader : SheetReader, Grounded reader reader.here.offset → reader.run lineComments front = .ok after →
      front = [] ∨ front.getLast? = some ';' ∨ front.getLast? = some '\x7d' from ends {} grounded_initial run
  clear run
  induction front with
  | nil => exact fun _ _ _ => Or.inl rfl
  | cons c front ih =>
    intro reader grounded run
    obtain ⟨moved, stepped, later⟩ := steps_of_run run
    cases front with
    | nil =>
      obtain rfl := Except.ok.inj later
      rcases step_closing grounded stepped ready outer with rfl | rfl <;> simp
    | cons d front =>
      rw [List.getLast?_cons_cons]
      exact Or.inr ((ih moved (grounded.step stepped) later).resolve_left (List.cons_ne_nil d front))

end Fronts

/-- A text of blanks and comments. The last line comment may end with the text. -/
inductive Idle (lineComments : Bool) : Text → Prop
  | nil : Idle lineComments []
  | blank {c : Char} {rest : Text} (white : isBlank c = true) (later : Idle lineComments rest) : Idle lineComments (c :: rest)
  | comment {body rest : Text} (unended : ¬ ['*', '/'] <:+: body) (later : Idle lineComments rest) :
    Idle lineComments ('/' :: '*' :: (body ++ '*' :: '/' :: rest))
  | line {body rest : Text} (known : lineComments = true) (single : '\n' ∉ body) (later : Idle lineComments rest) :
    Idle lineComments ('/' :: '/' :: (body ++ '\n' :: rest))
  | lastLine {body : Text} (known : lineComments = true) (single : '\n' ∉ body) : Idle lineComments ('/' :: '/' :: body)

/-- A reader that has read blanks and comments since the last item. -/
structure Waiting (reader : SheetReader) : Prop where
  plain : reader.mode = .plain
  read : reader.level.isPassed = false
  itemStart : reader.level.itemStart = none
  parens : reader.level.parens = 0

theorem Waiting.of_ready {reader : SheetReader} (ready : Ready reader) : Waiting reader :=
  ⟨ready.plain, ready.resting.read, ready.resting.itemStart, ready.resting.parens⟩

/-- The reader behind a text that leaves a gap in the item. -/
def waited (reader : SheetReader) (s gap : Text) : SheetReader :=
  { reader with here := behind reader.here s, level := { reader.level with item := gap ++ reader.level.item } }

section Gaps

variable {lineComments : Bool} {reader : SheetReader} {s t gap : Text} {c : Char}

theorem Waiting.waited (waiting : Waiting reader) (s gap : Text) : Waiting (waited reader s gap) :=
  ⟨waiting.plain, waiting.read, waiting.itemStart, waiting.parens⟩

theorem waited_append (reader : SheetReader) (s t gap more : Text) :
    waited (waited reader s gap) t more = waited reader (s ++ t) (more ++ gap) := by
  simp [SheetSeam.waited, behind_append]

theorem blank_bare (white : isBlank c = true) : c ∉ structural := by
  have filled : ∀ d ∈ structural, isBlank d = false := by decide
  exact fun member => nomatch (filled c member).symm.trans white

theorem run_blank (plain : reader.mode = .plain) (read : reader.level.isPassed = false) (white : isBlank c = true) (rest : Text) :
    reader.run lineComments (c :: rest) = (waited reader [c] [c]).run lineComments rest := by
  have bare := blank_bare white
  simp only [structural, List.mem_cons, not_or] at bare
  have noted : noting reader c = reader := by simp [noting, Level.begin, white]
  have taken : reader.takeIn c = .ok { reader with level := reader.level.keep c } := by
    simp_all [SheetReader.takeIn]
  rw [run_taken plain read (by simp_all) (by simp_all) noted taken]
  rfl

/-- Inside a comment nothing counts before its end. -/
theorem run_comment_body {start : Place} {body : Text} (inside : reader.mode = .comment start)
    (unended : ¬ ['*', '/'] <:+: body) (rest : Text) :
    reader.run lineComments (body ++ '*' :: '/' :: rest) =
      { reader with here := behind reader.here (body ++ ['*', '/']), mode := .plain }.run lineComments rest := by
  induction body generalizing reader with
  | nil => simp [SheetReader.run, SheetReader.step, SheetReader.read, inside, Except.map]
  | cons c body ih =>
    have stays : (c == '*' && (body ++ '*' :: '/' :: rest).head? == some '/') = false := by
      by_contra ends
      obtain ⟨rfl, slash⟩ : c = '*' ∧ (body ++ '*' :: '/' :: rest).head? = some '/' := by simpa using ends
      cases body with
      | nil => cases slash
      | cons d body =>
        obtain rfl := Option.some.inj slash
        exact unended ⟨[], body, rfl⟩
    have stepped : reader.step lineComments c (body ++ '*' :: '/' :: rest).head? =
        .ok { reader with here := reader.here.after c } := by
      simp only [SheetReader.step, SheetReader.read, inside, stays, Bool.false_eq_true, if_false, Except.map]
    have later : ¬ ['*', '/'] <:+: body := fun found => unended (List.infix_cons found)
    have onward := @ih { reader with here := reader.here.after c } inside later
    rw [List.cons_append, run_step stepped, onward]
    rfl

theorem run_comment (plain : reader.mode = .plain) {body : Text} (unended : ¬ ['*', '/'] <:+: body) (rest : Text) :
    reader.run lineComments ('/' :: '*' :: (body ++ '*' :: '/' :: rest)) =
      (waited reader ('/' :: '*' :: (body ++ ['*', '/'])) [' ']).run lineComments rest := by
  have opened : reader.run lineComments ('/' :: '*' :: (body ++ '*' :: '/' :: rest)) =
      { reader with
        here := (reader.here.after '/').after '*'
        mode := .comment reader.here
        level := reader.level.keep ' ' }.run lineComments (body ++ '*' :: '/' :: rest) := by
    simp [SheetReader.run, SheetReader.step, SheetReader.read, SheetReader.readPlain, plain, Except.map]
  rw [opened, run_comment_body rfl unended]
  simp only [SheetSeam.waited, plain, behind_cons]
  rfl

/-- A line comment is open up to the end of its line. -/
theorem run_line (waiting : Waiting reader) (known : lineComments = true) {body : Text} (single : '\n' ∉ body) (rest : Text) :
    reader.run lineComments ('/' :: '/' :: (body ++ rest)) =
      { waited reader ('/' :: '/' :: body) [] with mode := .lineComment }.run lineComments rest := by
  have opened : reader.run lineComments ('/' :: '/' :: (body ++ rest)) =
      { reader with here := (reader.here.after '/').after '/', mode := .lineComment }.run lineComments (body ++ rest) := by
    simp [SheetReader.run, SheetReader.step, SheetReader.read, SheetReader.readPlain, waiting.plain, waiting.parens, known,
      Except.map]
  have inside : ∀ here, { reader with here, mode := .lineComment }.run lineComments (body ++ rest) =
      { reader with here := behind here body, mode := .lineComment }.run lineComments rest := by
    clear opened
    induction body with
    | nil => exact fun _ => rfl
    | cons c body ih =>
      intro here
      obtain ⟨other, later⟩ := not_or.mp (List.mem_cons.not.mp single)
      have stepped : { reader with here, mode := .lineComment }.step lineComments c (body ++ rest).head? =
          .ok { reader with here := here.after c, mode := .lineComment } := by
        simp [SheetReader.step, SheetReader.read, Ne.symm other, Except.map]
      rw [List.cons_append, run_step stepped, ih later]
      rfl
  rw [opened, inside]
  rfl

/-- A line feed ends a line comment, and is a blank in any case. -/
theorem run_feed (waiting : Waiting reader) {mode : ReadMode} (between : mode = .plain ∨ mode = .lineComment) (rest : Text) :
    { reader with mode }.run lineComments ('\n' :: rest) = (waited reader ['\n'] ['\n']).run lineComments rest := by
  have blank := @run_blank lineComments reader '\n' waiting.plain waiting.read (by decide) rest
  rcases between with rfl | rfl
  · rw [← blank, ← waiting.plain]
  · have same : { reader with mode := .lineComment }.step lineComments '\n' rest.head? = reader.step lineComments '\n' rest.head? := by
      have plain : { reader with mode := .plain } = reader := by rw [← waiting.plain]
      simp only [SheetReader.step, SheetReader.read, waiting.plain, beq_self_eq_true, if_true, plain]
    rw [← blank]
    simp only [SheetReader.run, same]

/-- Behind blanks and comments a reader waits as before, or is in the last line comment. -/
theorem run_idle (idle : Idle lineComments s) (waiting : Waiting reader) :
    ∃ gap mode, (∀ c ∈ gap, isBlank c = true) ∧ (mode = .plain ∨ mode = .lineComment) ∧
      ∀ rest, reader.run lineComments (s ++ rest) = { waited reader s gap with mode }.run lineComments rest := by
  induction idle generalizing reader with
  | nil => exact ⟨[], .plain, nofun, Or.inl rfl, fun _ => by rw [← waiting.plain]; rfl⟩
  | @blank c more white _ ih =>
    obtain ⟨gap, mode, blanks, between, onward⟩ := ih (waiting.waited [c] [c])
    refine ⟨gap ++ [c], mode, List.forall_mem_append.mpr ⟨blanks, by simpa using white⟩, between, fun rest => ?_⟩
    rw [List.cons_append, run_blank waiting.plain waiting.read white, onward, waited_append]
    rfl
  | @comment body more unended _ ih =>
    obtain ⟨gap, mode, blanks, between, onward⟩ := ih (waiting.waited ('/' :: '*' :: (body ++ ['*', '/'])) [' '])
    refine ⟨gap ++ [' '], mode, List.forall_mem_append.mpr ⟨blanks, by decide⟩, between, fun rest => ?_⟩
    have comment := @run_comment lineComments reader waiting.plain body unended (more ++ rest)
    rw [waited_append] at onward
    simp only [List.cons_append, List.append_assoc, List.nil_append] at onward ⊢
    rw [comment, onward]
  | @line body more known single _ ih =>
    have begun : Waiting (SheetSeam.waited reader ('/' :: '/' :: body) []) := waiting.waited _ _
    obtain ⟨gap, mode, blanks, between, onward⟩ := ih (begun.waited ['\n'] ['\n'])
    refine ⟨gap ++ ['\n'], mode, List.forall_mem_append.mpr ⟨blanks, by decide⟩, between, fun rest => ?_⟩
    have line := @run_line lineComments reader waiting known body single ('\n' :: (more ++ rest))
    have feed := @run_feed lineComments _ begun .lineComment (Or.inr rfl) (more ++ rest)
    rw [waited_append, waited_append] at onward
    rw [feed, waited_append] at line
    simp only [List.cons_append, List.append_assoc, List.nil_append, List.append_nil] at line onward ⊢
    rw [line, onward]
  | @lastLine body known single =>
    exact ⟨[], .lineComment, nofun, Or.inr rfl, fun rest => run_line waiting known single rest⟩

end Gaps

end CascadeLens.Proofs.SheetSeam
