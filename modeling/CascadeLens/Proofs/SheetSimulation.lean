import CascadeLens.Proofs.SheetSteps

/-! Two sheet readers that read the same text in lockstep. Which kind of character comes next is decided by the
mode, the parentheses and the kind of level alone, so a relation that the single operations of a reader keep is
kept by whole runs. The relation says what may differ between the two: the places, what has been found, and what a block is kept for. -/

namespace CascadeLens.Proofs.SheetSimulation
open Text SheetSteps

/-- Modes of one kind that began at places that correspond. -/
inductive Modes (near : Place → Place → Prop) : ReadMode → ReadMode → Prop
  | plain : Modes near .plain .plain
  | commentMark {start start' : Place} (begun : near start start') : Modes near (.commentMark start) (.commentMark start')
  | comment {start start' : Place} (begun : near start start') : Modes near (.comment start) (.comment start')
  | commentEnd : Modes near .commentEnd .commentEnd
  | lineComment : Modes near .lineComment .lineComment
  | string {start start' : Place} (quote : Char) (begun : near start start') :
    Modes near (.string quote start) (.string quote start')
  | stringEscape {start start' : Place} (quote : Char) (begun : near start start') :
    Modes near (.stringEscape quote start) (.stringEscape quote start')
  | escape : Modes near .escape .escape
  | interpolation {start start' : Place} (depth : Nat) (begun : near start start') :
    Modes near (.interpolation depth start) (.interpolation depth start')

theorem modes_plain {near : Place → Place → Prop} {mode mode' : ReadMode} (plain : mode = .plain) (plain' : mode' = .plain) :
    Modes near mode mode' := by
  rw [plain, plain']
  exact .plain

/-- Two outcomes of the same kind, with results or faults that correspond. -/
def Outcomes {α : Type} (pair : α → α → Prop) (faults : Fault → Fault → Prop) : Except Fault α → Except Fault α → Prop
  | .ok after, .ok after' => pair after after'
  | .error fault, .error fault' => faults fault fault'
  | _, _ => False

/-- All that comes of a text behind what a reader has read. -/
def outcome (lineComments : Bool) (reader : SheetReader) (s : Text) : Except Fault Findings :=
  match reader.run lineComments s with
  | .error fault => .error fault
  | .ok after => after.finish

theorem outcome_run {lineComments : Bool} {reader after : SheetReader} {s t : Text}
    (same : reader.run lineComments s = after.run lineComments t) :
    outcome lineComments reader s = outcome lineComments after t := by
  rw [outcome, outcome, same]

/-- Outside of plain text a character only turns the mode, and is kept or not, so two readers in modes of one kind do
the same with it if they do in plain text. -/
theorem read_modes {near : Place → Place → Prop} {faults : Fault → Fault → Prop} {pair : SheetReader → SheetReader → Prop}
    {reader reader' : SheetReader} {lineComments : Bool} {c : Char} {next : Option Char}
    (modes : Modes near reader.mode reader'.mode) (stay : pair reader reader')
    (turn : ∀ {mode mode'}, Modes near mode mode' → pair { reader with mode } { reader' with mode := mode' })
    (keep : ∀ {mode mode'}, Modes near mode mode' →
      pair { reader with level := reader.level.keep c, mode } { reader' with level := reader'.level.keep c, mode := mode' })
    (fault : ∀ {place place'}, near place place' → faults (place.fault .unclosedString) (place'.fault .unclosedString))
    (plain : reader.mode = .plain → reader'.mode = .plain →
      Outcomes pair faults (reader.readPlain lineComments c next) (reader'.readPlain lineComments c next))
    (feed : c = '\n' → Outcomes pair faults ({ reader with mode := .plain }.readPlain lineComments c next)
      ({ reader' with mode := .plain }.readPlain lineComments c next)) :
    Outcomes pair faults (reader.read lineComments c next) (reader'.read lineComments c next) := by
  unfold SheetReader.read
  generalize known : reader.mode = mode at modes
  generalize known' : reader'.mode = mode' at modes
  cases modes with
  | plain => exact plain known known'
  | commentMark begun => exact turn (.comment begun)
  | comment begun =>
    dsimp only
    split
    · exact turn .commentEnd
    · exact stay
  | commentEnd => exact turn .plain
  | lineComment =>
    dsimp only
    split
    next ends => exact feed (beq_iff_eq.mp ends)
    next => exact stay
  | string quote begun =>
    dsimp only
    split_ifs
    · exact keep (.stringEscape quote begun)
    · exact keep .plain
    · exact fault begun
    · exact keep (.string quote begun)
  | stringEscape quote begun => exact keep (.string quote begun)
  | escape => exact keep .plain
  | interpolation depth begun =>
    dsimp only
    split_ifs
    · exact keep (.interpolation (depth + 1) begun)
    · exact keep .plain
    · exact keep (.interpolation (depth - 1) begun)
    · exact keep (.interpolation depth begun)

/-- A relation of readers that is kept by each operation, where the first reader is in a state for it. -/
structure Lockstep (near : Place → Place → Prop) (faults : Fault → Fault → Prop) (pair : SheetReader → SheetReader → Prop) :
    Prop where
  fault : ∀ {place place'} (kind : FaultKind), near place place' → faults (place.fault kind) (place'.fault kind)
  after : ∀ {place place'} (c : Char), near place place' → near (place.after c) (place'.after c)
  here : ∀ {reader reader'}, pair reader reader' → near reader.here reader'.here
  mode : ∀ {reader reader'}, pair reader reader' → Modes near reader.mode reader'.mode
  parens : ∀ {reader reader'}, pair reader reader' → reader'.level.parens = reader.level.parens
  passed : ∀ {reader reader'}, pair reader reader' → ∀ {depth keep}, reader.level.kind = .passed depth keep →
    ∃ keep', reader'.level.kind = .passed depth keep'
  unpassed : ∀ {reader reader'}, pair reader reader' → reader.level.isPassed = false → reader'.level.isPassed = false
  move : ∀ {reader reader'}, pair reader reader' → ∀ {place place'}, near place place' →
    pair { reader with here := place } { reader' with here := place' }
  turn : ∀ {reader reader'}, pair reader reader' → ∀ {mode mode'}, Modes near mode mode' →
    pair { reader with mode } { reader' with mode := mode' }
  keep : ∀ {reader reader'}, pair reader reader' → ∀ c,
    pair { reader with level := reader.level.keep c } { reader' with level := reader'.level.keep c }
  count : ∀ {reader reader'}, pair reader reader' → ∀ parens,
    pair { reader with level := { reader.level with parens } } { reader' with level := { reader'.level with parens } }
  note : ∀ {reader reader'}, pair reader reader' → ∀ c, pair (noting reader c) (noting reader' c)
  sink : ∀ {reader reader'}, pair reader reader' → ∀ {depth keep keep'}, reader.level.kind = .passed depth keep →
    reader'.level.kind = .passed depth keep' → ∀ depth,
      pair { reader with level := { reader.level with kind := .passed depth keep } }
        { reader' with level := { reader'.level with kind := .passed depth keep' } }
  leavePassed : ∀ {reader reader'}, pair reader reader' → ∀ {depth keep keep'}, reader.level.kind = .passed depth keep →
    reader'.level.kind = .passed depth keep' → pair (reader.leavePassed keep) (reader'.leavePassed keep')
  flush : ∀ {reader reader'}, pair reader reader' → reader.level.isPassed = false →
    pair { reader with level := reader.level.flush } { reader' with level := reader'.level.flush }
  enter : ∀ {reader reader'}, pair reader reader' → reader.level.isPassed = false → pair reader.enter reader'.enter
  leave : ∀ {reader reader'}, pair reader reader' → reader.level.isPassed = false →
    Outcomes pair faults reader.leave reader'.leave

namespace Lockstep

variable {near : Place → Place → Prop} {faults : Fault → Fault → Prop} {pair : SheetReader → SheetReader → Prop}
  {reader reader' : SheetReader}

theorem passOver (lockstep : Lockstep near faults pair) (paired : pair reader reader') {depth : Nat} {keep keep' : Option AtRule}
    (kind : reader.level.kind = .passed depth keep) (kind' : reader'.level.kind = .passed depth keep') (c : Char) :
    pair (reader.passOver depth keep c) (reader'.passOver depth keep' c) := by
  unfold SheetReader.passOver
  dsimp only
  split_ifs
  · rw [lockstep.parens paired]
    exact lockstep.count paired _
  · rw [lockstep.parens paired]
    exact lockstep.count paired _
  · exact lockstep.sink paired kind kind' _
  · cases depth with
    | zero => exact lockstep.leavePassed paired kind kind'
    | succ depth => exact lockstep.sink paired kind kind' depth
  · exact paired

theorem takeIn (lockstep : Lockstep near faults pair) (paired : pair reader reader') (read : reader.level.isPassed = false)
    (c : Char) : Outcomes pair faults (reader.takeIn c) (reader'.takeIn c) := by
  unfold SheetReader.takeIn
  dsimp only
  rw [lockstep.parens paired]
  split_ifs
  · exact lockstep.count (lockstep.keep paired c) _
  · exact lockstep.count (lockstep.keep paired c) _
  · exact lockstep.flush paired read
  · exact lockstep.enter paired read
  · exact lockstep.leave paired read
  · exact lockstep.keep paired c

/-- Either both readers pass over a level or both read it. -/
theorem level_cases (lockstep : Lockstep near faults pair) (paired : pair reader reader') :
    (∃ depth keep keep', reader.level.kind = .passed depth keep ∧ reader'.level.kind = .passed depth keep') ∨
      reader.level.isPassed = false ∧ reader'.level.isPassed = false := by
  cases kind : reader.level.kind
  case passed depth keep =>
    obtain ⟨keep', kind'⟩ := lockstep.passed paired kind
    exact Or.inl ⟨depth, keep, keep', rfl, kind'⟩
  all_goals
    have read : reader.level.isPassed = false := by rw [Level.isPassed, kind]
    exact Or.inr ⟨read, lockstep.unpassed paired read⟩

theorem readPlain (lockstep : Lockstep near faults pair) (paired : pair reader reader') (lineComments : Bool) (c : Char)
    (next : Option Char) :
    Outcomes pair faults (reader.readPlain lineComments c next) (reader'.readPlain lineComments c next) := by
  have noted := lockstep.note paired c
  have here := lockstep.here paired
  have kept := lockstep.keep noted c
  unfold SheetReader.readPlain
  rw [lockstep.parens paired]
  split_ifs
  · exact lockstep.turn (lockstep.keep paired ' ') (.commentMark here)
  · exact lockstep.turn paired .lineComment
  · exact lockstep.turn kept (.string c here)
  · exact lockstep.turn kept .escape
  · rcases lockstep.level_cases noted with ⟨depth, keep, keep', kind, kind'⟩ | ⟨read, read'⟩
    · dsimp only [noting] at kind kind' ⊢
      rw [kind, kind']
      exact lockstep.passOver noted kind kind' c
    · dsimp only
      split
      next depth keep kind => simp [noting, Level.isPassed, kind] at read
      next =>
        split
        next depth keep kind' => simp [noting, Level.isPassed, kind'] at read'
        next => exact lockstep.turn kept (.interpolation 0 here)
  · rcases lockstep.level_cases noted with ⟨depth, keep, keep', kind, kind'⟩ | ⟨read, read'⟩
    · dsimp only [noting] at kind kind' ⊢
      rw [kind, kind']
      exact lockstep.passOver noted kind kind' c
    · dsimp only
      split
      next depth keep kind => simp [noting, Level.isPassed, kind] at read
      next =>
        split
        next depth keep kind' => simp [noting, Level.isPassed, kind'] at read'
        next => exact lockstep.takeIn noted read c

theorem read (lockstep : Lockstep near faults pair) (paired : pair reader reader') (lineComments : Bool) (c : Char)
    (next : Option Char) : Outcomes pair faults (reader.read lineComments c next) (reader'.read lineComments c next) :=
  read_modes (lockstep.mode paired) paired (lockstep.turn paired) (lockstep.turn (lockstep.keep paired c))
    (lockstep.fault .unclosedString) (fun _ _ => lockstep.readPlain paired lineComments c next)
    fun _ => lockstep.readPlain (lockstep.turn paired .plain) lineComments c next

theorem step (lockstep : Lockstep near faults pair) (paired : pair reader reader') (lineComments : Bool) (c : Char)
    (next : Option Char) : Outcomes pair faults (reader.step lineComments c next) (reader'.step lineComments c next) := by
  have same := lockstep.read paired lineComments c next
  unfold SheetReader.step
  cases read : reader.read lineComments c next <;> cases read' : reader'.read lineComments c next <;>
    rw [read, read'] at same
  case error.error => exact same
  case error.ok => exact same.elim
  case ok.error => exact same.elim
  case ok.ok => exact lockstep.move same (lockstep.after c (lockstep.here paired))

theorem run (lockstep : Lockstep near faults pair) (paired : pair reader reader') (lineComments : Bool) (s : Text) :
    Outcomes pair faults (reader.run lineComments s) (reader'.run lineComments s) := by
  induction s generalizing reader reader' with
  | nil => exact paired
  | cons c rest ih =>
    have same := lockstep.step paired lineComments c rest.head?
    unfold SheetReader.run
    cases stepped : reader.step lineComments c rest.head? <;> cases stepped' : reader'.step lineComments c rest.head? <;>
      rw [stepped, stepped'] at same
    case error.error => exact same
    case error.ok => exact same.elim
    case ok.error => exact same.elim
    case ok.ok => exact ih same

theorem outcome {found : Findings → Findings → Prop} (lockstep : Lockstep near faults pair)
    (finish : ∀ {ended ended'}, pair ended ended' → Outcomes found faults ended.finish ended'.finish) (paired : pair reader reader')
    (lineComments : Bool) (s : Text) : Outcomes found faults (outcome lineComments reader s) (outcome lineComments reader' s) := by
  have same := lockstep.run paired lineComments s
  unfold SheetSimulation.outcome
  cases run : reader.run lineComments s <;> cases run' : reader'.run lineComments s <;> rw [run, run'] at same
  case error.error => exact same
  case error.ok => exact same.elim
  case ok.error => exact same.elim
  case ok.ok => exact finish same

end Lockstep

end CascadeLens.Proofs.SheetSimulation
