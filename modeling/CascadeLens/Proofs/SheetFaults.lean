import CascadeLens.Proofs.SheetRun
import Mathlib.Data.List.DropRight

/-! Where faults are seen. Whatever a text that cannot be read looks like, its fault names a place in it: there stands
a brace that closes nothing, or something begins that is not closed in all that follows. -/

namespace CascadeLens.Proofs.SheetFaults
open Text SheetSteps SheetForest SheetStack SheetRun

/-- The column behind a text, which is one more than the characters since its last line feed. -/
def columnBehind (front : Text) : Nat := (front.rtakeWhile (· != '\n')).length + 1

/-- Whether the quote that began a string closes it again on its line, with escapes read as pairs. -/
def closes (quote : Char) : Text → Bool
  | [] => false
  | '\\' :: _ :: rest => closes quote rest
  | c :: rest => c == quote || c != '\n' && closes quote rest

/-- With some braces open in front of a text, as many as are open are closed somewhere in it. -/
def Shuts (depth : Nat) (s : Text) : Prop :=
  ∃ front, front ≠ [] ∧ front <+: s ∧ depth + front.count '\x7b' ≤ front.count '\x7d'

/-- What stands at an offset where a fault is seen. -/
def Culprit (source : Text) (offset : Nat) : FaultKind → Prop
  | .unexpectedBrace => source[offset]? = some '\x7d'
  | .unclosedComment => ['/', '*'] <+: source.drop offset ∧ ¬ ['*', '/'] <:+: source.drop (offset + 2)
  | .unclosedString => ∃ quote, isQuote quote = true ∧ source[offset]? = some quote ∧
      closes quote (source.drop (offset + 1)) = false
  | .unclosedInterpolation => ['#', '\x7b'] <+: source.drop offset ∧ ¬ Shuts 0 (source.drop (offset + 1))
  | .unclosedBlock => ∃ c, source[offset]? = some c ∧ isBlank c = false ∧
      ∃ brace, offset ≤ brace ∧ source[brace]? = some '\x7b'

structure Seen (source : Text) (fault : Fault) (offset : Nat) : Prop where
  inside : offset < source.length
  line : fault.line = 1 + (source.take offset).count '\n'
  column : fault.column = columnBehind (source.take offset)
  culprit : Culprit source offset fault.kind

section Places

variable {source : Text} {place : Place}

theorem behind_column (s : Text) : (behind {} s).column = columnBehind s := by
  induction s using List.reverseRecOn with
  | nil => rfl
  | append_singleton s c ih =>
    rw [behind_append, behind_cons, behind_nil, Place.after, columnBehind]
    by_cases feed : c = '\n'
    · rw [List.rtakeWhile_concat_neg _ _ _ (by simp [feed])]
      simp [feed]
    · rw [List.rtakeWhile_concat_pos _ _ _ (by simpa using feed), List.length_append, List.length_singleton]
      simpa [feed, columnBehind] using ih

theorem At.column (here : At source place) : place.column = columnBehind (source.take place.offset) := by
  have counted := behind_column (source.take place.offset)
  rwa [← here.2] at counted

theorem prefix_inside {word : Text} {offset : Nat} (filled : word ≠ []) (stands : word <+: source.drop offset) :
    offset < source.length := by
  by_contra beyond
  rw [List.drop_eq_nil_of_le (by omega)] at stands
  exact filled (List.prefix_nil.mp stands)

theorem culprit_inside {offset : Nat} {kind : FaultKind} (culprit : Culprit source offset kind) :
    offset < source.length := by
  cases kind with
  | unexpectedBrace => exact (List.getElem?_eq_some_iff.mp culprit).1
  | unclosedComment => exact prefix_inside (by simp) culprit.1
  | unclosedString =>
    obtain ⟨_, _, stands, _⟩ := culprit
    exact (List.getElem?_eq_some_iff.mp stands).1
  | unclosedInterpolation => exact prefix_inside (by simp) culprit.1
  | unclosedBlock =>
    obtain ⟨_, stands, _⟩ := culprit
    exact (List.getElem?_eq_some_iff.mp stands).1

theorem seen_of_culprit (here : At source place) (kind : FaultKind) (culprit : Culprit source place.offset kind) :
    ∃ offset, Seen source (place.fault kind) offset :=
  ⟨place.offset, culprit_inside culprit, here.line, At.column here, culprit⟩

end Places

section Modes

variable {source rest : Text} {mode : ReadMode} {here : Place} {c : Char}

/-- Where the mode began stands what begins it, and if anything behind that ends it, it is still to be read. -/
def Pending (source rest : Text) : ReadMode → Prop
  | .commentMark start => At source start ∧ ['/', '*'] <+: source.drop start.offset ∧ source.drop (start.offset + 1) = rest
  | .comment start => At source start ∧ ['/', '*'] <+: source.drop start.offset ∧
      (['*', '/'] <:+: source.drop (start.offset + 2) → ['*', '/'] <:+: rest)
  | .string quote start => At source start ∧ isQuote quote = true ∧ source[start.offset]? = some quote ∧
      closes quote (source.drop (start.offset + 1)) = closes quote rest
  | .stringEscape quote start => At source start ∧ isQuote quote = true ∧ source[start.offset]? = some quote ∧
      closes quote (source.drop (start.offset + 1)) = closes quote ('\\' :: rest)
  | .interpolation depth start => At source start ∧ ['#', '\x7b'] <+: source.drop start.offset ∧
      (depth = 0 → rest.head? = some '\x7b') ∧ (Shuts 0 (source.drop (start.offset + 1)) → Shuts depth rest)
  | .plain | .commentEnd | .lineComment | .escape => True

/-- The modes that a character outside of all others can lead to. -/
inductive Enters (here : Place) (c : Char) (next : Option Char) : ReadMode → Prop
  | plain : Enters here c next .plain
  | lineComment : Enters here c next .lineComment
  | escape : Enters here c next .escape
  | commentMark (slash : c = '/') (star : next = some '*') : Enters here c next (.commentMark here)
  | string (quote : isQuote c = true) : Enters here c next (.string c here)
  | interpolation (hash : c = '#') (brace : next = some '\x7b') : Enters here c next (.interpolation 0 here)

theorem drop_succ {offset : Nat} (left : source.drop offset = c :: rest) : source.drop (offset + 1) = rest := by
  rw [← List.drop_drop, left, List.drop_one, List.tail_cons]

theorem prefix_of_next {d : Char} {offset : Nat} (left : source.drop offset = c :: rest) (next : rest.head? = some d) :
    [c, d] <+: source.drop offset := by
  obtain ⟨more, rfl⟩ := List.head?_eq_some_iff.mp next
  rw [left]
  exact ⟨more, rfl⟩

theorem Enters.pending (enters : Enters here c rest.head? mode) (stands : At source here)
    (left : source.drop here.offset = c :: rest) : Pending source rest mode := by
  have behind := drop_succ left
  cases enters with
  | plain | lineComment | escape => trivial
  | commentMark slash star =>
    subst slash
    exact ⟨stands, prefix_of_next left star, behind⟩
  | string quote =>
    have mark : source[here.offset]? = some c := by rw [← List.head?_drop, left, List.head?_cons]
    exact ⟨stands, quote, mark, by rw [behind]⟩
  | interpolation hash brace =>
    subst hash
    exact ⟨stands, prefix_of_next left brace, fun _ => brace, fun shuts => behind ▸ shuts⟩

theorem closes_escape (quote c : Char) (rest : Text) : closes quote ('\\' :: c :: rest) = closes quote rest := by
  rw [closes]

theorem closes_other {quote : Char} (bare : c ≠ '\\') (other : c ≠ quote) (line : c ≠ '\n') :
    closes quote (c :: rest) = closes quote rest := by
  have differs : (c == quote) = false := beq_eq_false_iff_ne.mpr other
  have onLine : (c != '\n') = true := bne_iff_ne.mpr line
  rw [closes, differs, onLine]
  · rfl
  · intro d more escape
    exact absurd escape bare

theorem closes_feed {quote : Char} (other : '\n' ≠ quote) (rest : Text) : closes quote ('\n' :: rest) = false := by
  simp [closes, other]

theorem closes_lone_escape {quote : Char} (mark : isQuote quote = true) : closes quote ['\\'] = false := by
  have other : '\\' ≠ quote := by
    rintro rfl
    exact absurd mark (by decide)
  simp [closes, other]

/-- What ends a comment is still to be read behind a character that does not begin its end. -/
theorem star_later (other : ¬ (c = '*' ∧ rest.head? = some '/')) (ends : ['*', '/'] <:+: c :: rest) :
    ['*', '/'] <:+: rest := by
  rcases List.infix_cons_iff.mp ends with now | later
  · obtain ⟨more, whole⟩ := now
    obtain ⟨rfl, rfl⟩ := List.cons.inj whole
    exact absurd ⟨rfl, rfl⟩ other
  · exact later

section Braces

variable {depth : Nat}

theorem not_shuts_nil (depth : Nat) : ¬ Shuts depth [] := by
  rintro ⟨front, filled, before, _⟩
  exact filled (List.prefix_nil.mp before)

/-- Unless it closes the last brace open, a character leaves the closing of all to what follows. -/
theorem shuts_later {deeper : Nat} (shuts : Shuts depth (c :: rest)) (open_ : c = '\x7d' → 1 < depth)
    (begun : depth = 0 → c = '\x7b')
    (counts : ∀ more : Text, depth + (c :: more).count '\x7b' ≤ (c :: more).count '\x7d' →
      deeper + more.count '\x7b' ≤ more.count '\x7d') : Shuts deeper rest := by
  obtain ⟨front, filled, before, enough⟩ := shuts
  obtain ⟨d, more, rfl⟩ := List.exists_cons_of_ne_nil filled
  obtain ⟨rfl, later⟩ := List.cons_prefix_cons.mp before
  refine ⟨more, ?_, later, counts more enough⟩
  rintro rfl
  by_cases closing : d = '\x7d'
  · have several := open_ closing
    subst closing
    simp at enough
    omega
  · have none : depth = 0 := by
      simp [closing] at enough
      omega
    have opening := begun none
    subst opening
    simp at enough

theorem shuts_opening (shuts : Shuts depth ('\x7b' :: rest)) : Shuts (depth + 1) rest := by
  apply shuts_later shuts nofun (fun _ => rfl)
  intro more enough
  simp at enough
  omega

theorem shuts_closing (several : 1 < depth) (shuts : Shuts depth ('\x7d' :: rest)) : Shuts (depth - 1) rest := by
  apply shuts_later shuts (fun _ => several) (by omega)
  intro more enough
  simp at enough
  omega

theorem shuts_other (inside : depth ≠ 0) (opening : c ≠ '\x7b') (closing : c ≠ '\x7d') (shuts : Shuts depth (c :: rest)) :
    Shuts depth rest := by
  apply shuts_later shuts (fun brace => absurd brace closing) (fun none => absurd none inside)
  intro more enough
  simpa [opening, closing] using enough

end Braces

end Modes

section Steps

variable {source rest : Text} {reader after : SheetReader} {lineComments : Bool} {next : Option Char} {c : Char}

/-- Where a character leads among the levels: it stays on its level, opens one behind the item begun, or closes it. -/
inductive Moves (reader : SheetReader) (c : Char) (after : SheetReader) : Prop
  | stays (start : after.level.start = reader.level.start) (outer : after.outer = reader.outer)
  | enters {around : Level} (brace : c = '\x7b') (start : after.level.start = reader.level.itemStart.getD reader.here)
    (outer : after.outer = around :: reader.outer) (same : around.start = reader.level.start)
  | leaves {around : Level} {outer : List Level} (within : reader.outer = around :: outer)
    (start : after.level.start = around.start) (left : after.outer = outer)

/-- Outside of all other modes a character leads to one of these modes, or is a brace that closes nothing. -/
def Turns (reader : SheetReader) (c : Char) (modes : ReadMode → Prop) : Except Fault SheetReader → Prop
  | .ok after => modes after.mode ∧ Moves reader c after
  | .error fault => c = '\x7d' ∧ fault = reader.here.fault .unexpectedBrace

theorem leavePassed_turns (reader : SheetReader) (keep : Option AtRule) :
    (reader.leavePassed keep).mode = reader.mode ∧ Moves reader c (reader.leavePassed keep) := by
  unfold SheetReader.leavePassed
  split
  next => exact ⟨rfl, .stays rfl rfl⟩
  next around outer within =>
    cases keep with
    | none => exact ⟨rfl, .leaves within rfl rfl⟩
    | some rule =>
      dsimp only
      split <;> exact ⟨rfl, .leaves within rfl rfl⟩

theorem passOver_turns (reader : SheetReader) (depth : Nat) (keep : Option AtRule) (c : Char) :
    (reader.passOver depth keep c).mode = reader.mode ∧ Moves reader c (reader.passOver depth keep c) := by
  unfold SheetReader.passOver
  dsimp only
  split_ifs
  · exact ⟨rfl, .stays rfl rfl⟩
  · exact ⟨rfl, .stays rfl rfl⟩
  · exact ⟨rfl, .stays rfl rfl⟩
  · cases depth with
    | zero => exact leavePassed_turns reader keep
    | succ depth => exact ⟨rfl, .stays rfl rfl⟩
  · exact ⟨rfl, .stays rfl rfl⟩

theorem close_start (level around : Level) (here : Place) : (level.close around here).start = around.start := by
  unfold Level.close
  split <;> rfl

theorem flush_start (level : Level) : level.flush.start = level.start := by
  unfold Level.flush
  split <;> rfl

theorem takeIn_turns (reader : SheetReader) (c : Char) : Turns reader c (· = reader.mode) (reader.takeIn c) := by
  unfold SheetReader.takeIn
  dsimp only
  split_ifs with opens closes ends begins closing
  · exact ⟨rfl, .stays rfl rfl⟩
  · exact ⟨rfl, .stays rfl rfl⟩
  · exact ⟨rfl, .stays (flush_start reader.level) rfl⟩
  · simp only [Bool.and_eq_true, beq_iff_eq] at begins
    exact ⟨rfl, .enters begins.2 (inner_fresh _ _ _).start rfl rfl⟩
  · simp only [Bool.and_eq_true, beq_iff_eq] at closing
    unfold SheetReader.leave
    split
    next => exact ⟨closing.2, rfl⟩
    next around outer within => exact ⟨rfl, .leaves within (close_start _ _ _) rfl⟩
  · exact ⟨rfl, .stays rfl rfl⟩

theorem Turns.weaken {modes more : ReadMode → Prop} {outcome : Except Fault SheetReader}
    (turns : Turns reader c modes outcome) (implies : ∀ mode, modes mode → more mode) : Turns reader c more outcome := by
  cases outcome with
  | ok after => exact ⟨implies after.mode turns.1, turns.2⟩
  | error fault => exact turns

theorem Turns.turned {mode : ReadMode} {modes : ReadMode → Prop} {outcome : Except Fault SheetReader}
    (turns : Turns { reader with mode } c modes outcome) : Turns reader c modes outcome := by
  cases outcome with
  | ok after =>
    obtain ⟨turned, moves⟩ := turns
    refine ⟨turned, ?_⟩
    cases moves with
    | stays start outer => exact .stays start outer
    | enters brace start outer same => exact .enters brace start outer same
    | leaves within start left => exact .leaves within start left
  | error fault => exact turns

theorem readPlain_turns (plain : reader.mode = .plain) (lineComments : Bool) (c : Char) (next : Option Char) :
    Turns (noting reader c) c (Enters reader.here c next) (reader.readPlain lineComments c next) := by
  have still : ∀ mode, mode = reader.mode → Enters reader.here c next mode := by
    rintro _ rfl
    exact plain ▸ .plain
  have passes : ∀ depth keep, Turns (noting reader c) c (Enters reader.here c next)
      (.ok ((noting reader c).passOver depth keep c)) := by
    intro depth keep
    obtain ⟨mode, moves⟩ := passOver_turns (noting reader c) depth keep c
    exact ⟨still _ mode, moves⟩
  have start := noted_start reader.level reader.here c
  unfold SheetReader.readPlain
  dsimp only
  split_ifs with comment line quote escape opening
  · simp only [Bool.and_eq_true, beq_iff_eq] at comment
    exact ⟨.commentMark comment.1 comment.2, .stays start.symm rfl⟩
  · exact ⟨.lineComment, .stays start.symm rfl⟩
  · exact ⟨.string quote, .stays rfl rfl⟩
  · exact ⟨.escape, .stays rfl rfl⟩
  · simp only [Bool.and_eq_true, beq_iff_eq] at opening
    split
    next depth keep _ => exact passes depth keep
    next => exact ⟨.interpolation opening.1 opening.2, .stays rfl rfl⟩
  · split
    next depth keep _ => exact passes depth keep
    next => exact (takeIn_turns (noting reader c) c).weaken still

end Steps

section Runs

variable {source rest : Text} {reader after : SheetReader} {lineComments : Bool} {c : Char}

/-- A block begins where something stands that is no blank, and its brace comes later. -/
def Opened (source : Text) (level : Level) : Prop :=
  Begins source level.start ∧ ∃ brace, level.start.offset ≤ brace ∧ source[brace]? = some '\x7b'

/-- All levels around which there is another one are blocks of the source. -/
def Enclosed (source : Text) : Level → List Level → Prop
  | _, [] => True
  | level, around :: outer => Opened source level ∧ Enclosed source around outer

theorem Enclosed.congr {level other : Level} {outer : List Level} (enclosed : Enclosed source level outer)
    (start : other.start = level.start) : Enclosed source other outer := by
  cases outer with
  | nil => trivial
  | cons around outer =>
    obtain ⟨opened, outside⟩ := enclosed
    refine ⟨?_, outside⟩
    rw [Opened, start]
    exact opened

/-- A reader that has the rest of a source before it. -/
structure Tracks (source rest : Text) (reader : SheetReader) : Prop where
  here : At source reader.here
  left : source.drop reader.here.offset = rest
  holds : Holds source reader reader.here.offset
  pending : Pending source rest reader.mode
  enclosed : Enclosed source reader.level reader.outer

theorem Tracks.next (tracks : Tracks source (c :: rest) reader) : source[reader.here.offset]? = some c := by
  rw [← List.head?_drop, tracks.left, List.head?_cons]

theorem Tracks.moves (tracks : Tracks source (c :: rest) reader) (moves : Moves (noting reader c) c after) :
    Enclosed source after.level after.outer := by
  have enclosed : Enclosed source (noting reader c).level reader.outer := tracks.enclosed.congr (noted_start _ _ _)
  cases moves with
  | stays start outer =>
    rw [outer]
    exact enclosed.congr start
  | enters brace start outer same =>
    have noted := tracks.holds.note tracks.here tracks.next
    have filled : isBlank c = false := by
      rw [brace]
      decide
    obtain ⟨place, known⟩ := Option.isSome_iff_exists.mp (noting_begun reader filled)
    obtain ⟨begins, bounded⟩ := noted.begun place known
    rw [known, Option.getD_some] at start
    rw [outer]
    refine ⟨⟨start ▸ begins, reader.here.offset, start ▸ bounded, ?_⟩, enclosed.congr same⟩
    rw [tracks.next, brace]
  | leaves within start left =>
    have within : reader.outer = _ := within
    rw [within] at enclosed
    rw [left]
    exact enclosed.2.congr start

/-- A character keeps what is pending and the blocks that are open, or shows a fault. -/
def Goes (source rest : Text) (reader : SheetReader) (c : Char) : Except Fault SheetReader → Prop
  | .ok after => Pending source rest after.mode ∧ Moves (noting reader c) c after
  | .error fault => ∃ offset, Seen source fault offset

theorem Tracks.turns (tracks : Tracks source (c :: rest) reader) {outcome : Except Fault SheetReader}
    (turns : Turns (noting reader c) c (Enters reader.here c rest.head?) outcome) : Goes source rest reader c outcome := by
  cases outcome with
  | ok after => exact ⟨turns.1.pending tracks.here tracks.left, turns.2⟩
  | error fault =>
    obtain ⟨rfl, rfl⟩ := turns
    exact seen_of_culprit tracks.here .unexpectedBrace tracks.next

theorem moves_stay {level : Level} {mode : ReadMode} (start : level.start = reader.level.start) :
    Moves (noting reader c) c { reader with level, mode } :=
  .stays (start.trans (noted_start _ _ _).symm) rfl

theorem Tracks.read (tracks : Tracks source (c :: rest) reader) (lineComments : Bool) :
    Goes source rest reader c (reader.read lineComments c rest.head?) := by
  have pending := tracks.pending
  unfold SheetReader.read
  cases mode : reader.mode <;> rw [mode] at pending
  case plain => exact tracks.turns (readPlain_turns mode lineComments c rest.head?)
  case commentMark start =>
    obtain ⟨begun, opens, left⟩ := pending
    have behind : source.drop (start.offset + 2) = rest := drop_succ left
    exact ⟨⟨begun, opens, fun ends => behind ▸ ends⟩, moves_stay rfl⟩
  case comment start =>
    obtain ⟨begun, opens, ends⟩ := pending
    dsimp only
    split
    next => exact ⟨trivial, moves_stay rfl⟩
    next other =>
      simp only [Bool.and_eq_true, beq_iff_eq] at other
      have kept : Pending source rest reader.mode := by
        rw [mode]
        exact ⟨begun, opens, fun closed => star_later other (ends closed)⟩
      exact ⟨kept, moves_stay rfl⟩
  case commentEnd => exact ⟨trivial, moves_stay rfl⟩
  case lineComment =>
    dsimp only
    split
    next =>
      have turns := @readPlain_turns { reader with mode := .plain } rfl lineComments c rest.head?
      exact tracks.turns (@Turns.turned (noting reader c) c .plain _ _ turns)
    next =>
      have kept : Pending source rest reader.mode := by
        rw [mode]
        trivial
      exact ⟨kept, moves_stay rfl⟩
  case string quote start =>
    obtain ⟨begun, mark, stands, same⟩ := pending
    dsimp only
    split_ifs with escape closing feed
    · obtain rfl := beq_iff_eq.mp escape
      exact ⟨⟨begun, mark, stands, same⟩, moves_stay rfl⟩
    · exact ⟨trivial, moves_stay rfl⟩
    · obtain rfl := beq_iff_eq.mp feed
      rw [closes_feed (by simpa using closing)] at same
      exact seen_of_culprit begun .unclosedString ⟨quote, mark, stands, same⟩
    · simp only [beq_iff_eq] at escape closing feed
      rw [closes_other escape closing feed] at same
      exact ⟨⟨begun, mark, stands, same⟩, moves_stay rfl⟩
  case stringEscape quote start =>
    obtain ⟨begun, mark, stands, same⟩ := pending
    rw [closes_escape] at same
    exact ⟨⟨begun, mark, stands, same⟩, moves_stay rfl⟩
  case escape => exact ⟨trivial, moves_stay rfl⟩
  case interpolation depth start =>
    obtain ⟨begun, opens, first, later⟩ := pending
    dsimp only
    split_ifs with opening last closing
    · obtain rfl := beq_iff_eq.mp opening
      exact ⟨⟨begun, opens, nofun, fun shuts => shuts_opening (later shuts)⟩, moves_stay rfl⟩
    · exact ⟨trivial, moves_stay rfl⟩
    · obtain rfl := beq_iff_eq.mp closing
      have several : 1 < depth := by simpa using last
      exact ⟨⟨begun, opens, by omega, fun shuts => shuts_closing several (later shuts)⟩, moves_stay rfl⟩
    · simp only [beq_iff_eq] at opening closing
      have inside : depth ≠ 0 := by
        intro none
        exact opening (Option.some.inj (first none))
      exact ⟨⟨begun, opens, fun none => absurd none inside, fun shuts => shuts_other inside opening closing (later shuts)⟩,
        moves_stay rfl⟩

theorem Tracks.step (tracks : Tracks source (c :: rest) reader)
    (stepped : reader.step lineComments c rest.head? = .ok after) : Tracks source rest after := by
  obtain ⟨onward, there, offset⟩ := tracks.holds.step tracks.here tracks.next stepped
  have goes := tracks.read lineComments
  obtain ⟨moved, read, rfl⟩ := read_of_step stepped
  rw [read] at goes
  obtain ⟨pending, moves⟩ := goes
  have enclosed := tracks.moves moves
  refine ⟨there, ?_, onward, pending, enclosed⟩
  rw [offset]
  exact drop_succ tracks.left

theorem Tracks.step_fault (tracks : Tracks source (c :: rest) reader) {fault : Fault}
    (stepped : reader.step lineComments c rest.head? = .error fault) : ∃ offset, Seen source fault offset := by
  have goes := tracks.read lineComments
  cases read : reader.read lineComments c rest.head? with
  | ok moved => simp [SheetReader.step, read, Except.map] at stepped
  | error seen =>
    obtain rfl : seen = fault := by simpa [SheetReader.step, read, Except.map] using stepped
    rw [read] at goes
    exact goes

/-- A run ends with nothing left to read, or at a fault that is seen in the source. -/
theorem Tracks.run (tracks : Tracks source rest reader) (lineComments : Bool) :
    (∃ after, reader.run lineComments rest = .ok after ∧ Tracks source [] after) ∨
      ∃ fault offset, reader.run lineComments rest = .error fault ∧ Seen source fault offset := by
  induction rest generalizing reader with
  | nil => exact Or.inl ⟨reader, rfl, tracks⟩
  | cons c rest ih =>
    cases stepped : reader.step lineComments c rest.head? with
    | ok after =>
      rw [run_step stepped]
      exact ih (tracks.step stepped)
    | error fault =>
      obtain ⟨offset, seen⟩ := tracks.step_fault stepped
      exact Or.inr ⟨fault, offset, by simp [SheetReader.run, stepped], seen⟩

/-- What is pending at the end of a source is not closed in it. -/
theorem Tracks.finish (tracks : Tracks source [] reader) {fault : Fault} (finished : reader.finish = .error fault) :
    ∃ offset, Seen source fault offset := by
  have pending := tracks.pending
  have blocks : ∀ around outer, reader.outer = around :: outer →
      ∃ offset, Seen source (reader.level.start.fault .unclosedBlock) offset := by
    intro around outer inside
    have enclosed := tracks.enclosed
    rw [inside] at enclosed
    obtain ⟨⟨here, c, stands, filled⟩, brace⟩ := enclosed.1
    exact seen_of_culprit here .unclosedBlock ⟨c, stands, filled, brace⟩
  unfold SheetReader.finish at finished
  cases mode : reader.mode <;> rw [mode] at pending finished
  case commentMark start =>
    obtain ⟨_, ⟨more, opens⟩, left⟩ := pending
    rw [drop_succ opens.symm] at left
    cases left
  case comment start =>
    obtain rfl := Except.error.inj finished
    obtain ⟨begun, opens, ends⟩ := pending
    exact seen_of_culprit begun .unclosedComment ⟨opens, fun closed => absurd (ends closed) (by simp)⟩
  case string quote start =>
    obtain rfl := Except.error.inj finished
    obtain ⟨begun, mark, stands, same⟩ := pending
    exact seen_of_culprit begun .unclosedString ⟨quote, mark, stands, same⟩
  case stringEscape quote start =>
    obtain rfl := Except.error.inj finished
    obtain ⟨begun, mark, stands, same⟩ := pending
    rw [closes_lone_escape mark] at same
    exact seen_of_culprit begun .unclosedString ⟨quote, mark, stands, same⟩
  case interpolation depth start =>
    obtain rfl := Except.error.inj finished
    obtain ⟨begun, opens, _, later⟩ := pending
    exact seen_of_culprit begun .unclosedInterpolation ⟨opens, fun shuts => not_shuts_nil depth (later shuts)⟩
  all_goals
    dsimp only at finished
    split at finished
    next around outer inside =>
      obtain rfl := Except.error.inj finished
      exact blocks around outer inside
    next => cases finished

theorem tracks_initial (source : Text) : Tracks source source {} :=
  ⟨⟨Nat.zero_le _, rfl⟩, rfl, holds_initial source, trivial, trivial⟩

/-- Whatever text cannot be read as a stylesheet, the fault is seen at an offset of it. -/
theorem fault_is_seen {name : Text} {dialect : Dialect} {fault : Fault}
    (failed : Stylesheet.parse source name dialect = .error fault) : ∃ offset, Seen source fault offset := by
  have read : Findings.read dialect source = .error fault := by
    unfold Stylesheet.parse at failed
    split at failed
    next seen read =>
      obtain rfl := Except.error.inj failed
      exact read
    next => cases failed
  unfold Findings.read at read
  rcases (tracks_initial source).run dialect.hasLineComments with ⟨after, run, tracks⟩ | ⟨other, offset, run, seen⟩
  · rw [run] at read
    exact tracks.finish read
  · rw [run] at read
    obtain rfl := Except.error.inj read
    exact ⟨offset, seen⟩

/-- A string in a rule, behind a comment of two lines and an escaped quote, that its line ends. -/
def brokenText : Text := "/* a\n b */ .menu \x7b\n  content: '\\'x\n'; \x7d".toList

theorem broken_string_is_seen : Stylesheet.parse brokenText "menu".toList .css = .error ⟨.unclosedString, 3, 12⟩ ∧
    ∃ offset, Seen brokenText ⟨.unclosedString, 3, 12⟩ offset := by
  have failed : Stylesheet.parse brokenText "menu".toList .css = .error ⟨.unclosedString, 3, 12⟩ := by decide +kernel
  exact ⟨failed, fault_is_seen failed⟩

end Runs

end CascadeLens.Proofs.SheetFaults
