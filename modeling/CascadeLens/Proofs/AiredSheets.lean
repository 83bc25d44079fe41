import CascadeLens.Proofs.SheetAiring
import CascadeLens.Proofs.SheetFaults
import CascadeLens.Proofs.SheetSeam
import CascadeLens.Proofs.SqueezedSheets

/-! Reading a sheet with other blanks in it. Where blanks come and go beside marks, a reader of the one text and a
reader of the other stay abreast of each other, so both texts are accepted or neither, and the same is found in both
but for blanks outside of strings. -/

namespace CascadeLens.Proofs.AiredSheets
open Text TextShape NestReading DeclarationQuotes SheetWriting SheetSteps SheetSimulation SheetFaults
open SqueezedText SheetAiring SqueezedSheets

/-- Without places. A reader of a sheet without line comments is in none of these. -/
def maskOf : ReadMode → Mask
  | .plain => .plain
  | .commentMark _ => .commentMark
  | .comment _ => .comment
  | .commentEnd => .commentEnd
  | .string quote _ => .string quote
  | .stringEscape quote _ => .stringEscape quote
  | .escape => .escape
  | .lineComment | .interpolation .. => .beyond

def inComment (mask : Mask) : Bool := mask == .commentMark || mask == .comment || mask == .commentEnd

/-- A level that would begin a word with what comes next, or is passed over. -/
def Awaits (level : Level) : Prop := level.isPassed = false → (Strand.read {} level.item.reverse).lag = true

/-- A reader in front of text that it reads without interpolations. Behind a mark, a blank or a comment its level awaits
a word. -/
structure Poised (reader : SheetReader) (lag : Bool) (rest : Text) : Prop where
  known : maskOf reader.mode ≠ .beyond
  spared : Spared (maskOf reader.mode) rest
  holds : Holds False reader rest
  settled : lag = true ∨ inComment (maskOf reader.mode) = true → Awaits reader.level

section Masks

variable {reader after : SheetReader} {c : Char} {ahead ahead' : Option Char}

theorem mask_readPlain (plain : reader.mode = .plain) (read : reader.readPlain false c ahead = .ok after)
    (calm : Mask.next .plain c ahead ≠ .beyond) : maskOf after.mode = Mask.next .plain c ahead := by
  unfold SheetReader.readPlain at read
  simp only [Bool.and_false, Bool.false_and, Bool.false_eq_true, if_false] at read
  simp only [Mask.next] at calm ⊢
  split_ifs at read calm ⊢ with comment quote escape opening
  · cases read
    rfl
  · cases read
    rfl
  · cases read
    rfl
  · exact absurd rfl calm
  · split at read
    next depth keep kind =>
      cases read
      rw [(passOver_turns _ depth keep c).1, plain]
      rfl
    next =>
      have turns := takeIn_turns (noting reader c) c
      dsimp only [noting] at turns
      rw [read] at turns
      rw [turns.1, plain]
      rfl

/-- Without interpolations the mask tells the next one. -/
theorem mask_read (read : reader.read false c ahead = .ok after) (calm : (maskOf reader.mode).next c ahead ≠ .beyond) :
    maskOf after.mode = (maskOf reader.mode).next c ahead := by
  cases mode : reader.mode <;> rw [mode] at calm <;> simp only [SheetReader.read, mode] at read
  case plain => exact mask_readPlain mode read calm
  case lineComment => exact absurd rfl calm
  case interpolation => exact absurd rfl calm
  case comment start =>
    cases read
    by_cases ends : (c == '*' && ahead == some '/') = true
    · rw [if_pos ends, maskOf, maskOf, Mask.next, if_pos ends]
    · rw [if_neg ends, mode, maskOf, Mask.next, if_neg ends]
  case string =>
    simp only [maskOf, Mask.next]
    split_ifs at read ⊢ <;> cases read <;> rfl
  all_goals
    cases read
    rfl

/-- The mask behind a character is all that what comes next decides. -/
theorem step_ahead (same : (maskOf reader.mode).next c ahead' = (maskOf reader.mode).next c ahead)
    (calm : (maskOf reader.mode).next c ahead ≠ .beyond) : reader.step false c ahead' = reader.step false c ahead := by
  have calm' := same.symm ▸ calm
  unfold SheetReader.step SheetReader.read
  cases mode : reader.mode <;> rw [mode] at same calm calm'
  case plain =>
    have star : (c == '/' && ahead' == some '*') = (c == '/' && ahead == some '*') := by
      by_cases slash : c = '/'
      · subst slash
        cases mark : ahead == some '*' <;> cases mark' : ahead' == some '*' <;>
          simp [maskOf, Mask.next, mark, mark', isQuote] at same ⊢
      · rw [beq_eq_false_iff_ne.mpr slash, Bool.false_and, Bool.false_and]
    have hash : (c == '#' && ahead' == some '\x7b') = (c == '#' && ahead == some '\x7b') := by
      by_cases begins : c = '#'
      · subst begins
        have none : ∀ ahead, Mask.next .plain '#' ahead ≠ .beyond → (ahead == some '\x7b') = false := by
          intro ahead open'
          refine beq_eq_false_iff_ne.mpr ?_
          rintro rfl
          exact open' rfl
        rw [none _ calm, none _ calm']
      · rw [beq_eq_false_iff_ne.mpr begins, Bool.false_and, Bool.false_and]
    simp only [SheetReader.readPlain, star, hash, Bool.and_false, Bool.false_and]
  case comment =>
    have slash : (c == '*' && ahead' == some '/') = (c == '*' && ahead == some '/') := by
      cases ends : (c == '*' && ahead == some '/') <;> cases ends' : (c == '*' && ahead' == some '/') <;>
        simp [maskOf, Mask.next, ends, ends'] at same ⊢
    simp only [slash]
  case lineComment => exact absurd rfl calm

end Masks

section Awaiting

variable {level : Level} {reader after : SheetReader} {lag : Bool} {c : Char} {rest : Text}

theorem awaits_blank (none : level.item = []) : Awaits level := by
  intro _
  rw [none]
  rfl

theorem awaits_keep (closed : (Nest.read {} level.item.reverse).quote = none) (settles : (isBlank c || isMark c) = true) :
    Awaits (level.keep c) := by
  intro _
  have nest := strand_nest {} level.item.reverse
  rw [Level.keep, List.reverse_cons, strand_append]
  show (Strand.step _ c).lag = true
  rw [Strand.step, nest, closed, settles]
  rfl

theorem Poised.agrees (poised : Poised reader lag rest) : Agrees (Nest.read {} reader.level.item.reverse) reader.mode := by
  rcases poised.holds.item with ⟨none, _⟩ | agrees | opening
  · exact none.elim
  · exact agrees
  · exact opening.loose.elim

theorem takeIn_awaits (holds : Holds False reader rest) (plain : reader.mode = .plain)
    (settles : (isBlank c || isMark c) = true) (taken : reader.takeIn c = .ok after) : Awaits after.level := by
  have closed : (Nest.read {} reader.level.item.reverse).quote = none := by
    rcases holds.calm plain with mixed | bare
    · exact mixed.1.elim
    · exact bare.1
  unfold SheetReader.takeIn at taken
  dsimp only at taken
  split_ifs at taken
  · cases taken
    exact awaits_keep closed settles
  · cases taken
    exact awaits_keep closed settles
  · cases taken
    exact awaits_blank (flush_item _)
  · cases taken
    exact awaits_blank (@inner_collected False _ _ _).2
  · unfold SheetReader.leave at taken
    split at taken
    · cases taken
    next around outer levels =>
      cases taken
      obtain ⟨⟨-, blank⟩, -⟩ := List.forall_mem_cons.mp (levels ▸ holds.outer)
      exact awaits_blank ((close_item _ _ _).trans blank)
  · cases taken
    exact awaits_keep closed settles

theorem passOver_awaits (holds : Holds False reader rest) {depth : Nat} {keep : Option AtRule}
    (kind : reader.level.kind = .passed depth keep) (c : Char) : Awaits (reader.passOver depth keep c).level := by
  have vacuous : ∀ level : Level, level.isPassed = true → Awaits level := fun level passed read =>
    nomatch passed.symm.trans read
  have passed : reader.level.isPassed = true := by rw [Level.isPassed, kind]
  unfold SheetReader.passOver
  dsimp only
  split_ifs
  · exact vacuous _ passed
  · exact vacuous _ passed
  · exact vacuous _ rfl
  · cases depth with
    | zero =>
      cases levels : reader.outer with
      | nil =>
        rw [SheetReader.leavePassed, levels]
        exact vacuous _ passed
      | cons around outer =>
        obtain ⟨⟨-, blank⟩, -⟩ := List.forall_mem_cons.mp (levels ▸ holds.outer)
        rw [(leavePassed_left levels keep).2.1]
        exact awaits_blank blank
    | succ depth => exact vacuous _ rfl
  · exact vacuous _ passed

theorem readPlain_awaits (poised : Poised reader lag (c :: rest)) (plain : reader.mode = .plain)
    (read : reader.readPlain false c rest.head? = .ok after)
    (settles : (isBlank c || isMark c) = true ∨ inComment (maskOf after.mode) = true) : Awaits after.level := by
  have closed : (Nest.read {} reader.level.item.reverse).quote = none := by
    have agrees := poised.agrees
    rw [plain] at agrees
    exact agrees.1
  have noted := poised.holds.noted c
  unfold SheetReader.readPlain at read
  simp only [Bool.and_false, Bool.false_and, Bool.false_eq_true, if_false] at read
  split_ifs at read with comment quote escape opening
  · cases read
    exact awaits_keep closed rfl
  · cases read
    have other : (isBlank c || isMark c) = false := by
      simp only [isQuote, Bool.or_eq_true, beq_iff_eq] at quote
      rcases quote with rfl | rfl <;> rfl
    simp [other, maskOf, inComment] at settles
  · cases read
    obtain rfl := beq_iff_eq.mp escape
    rcases settles with settles | settles <;> cases settles
  · split at read
    next depth keep kind =>
      cases read
      exact passOver_awaits noted kind c
    next =>
      cases read
      simp only [Bool.and_eq_true, beq_iff_eq] at opening
      obtain rfl := opening.1
      rcases settles with settles | settles <;> cases settles
  · split at read
    next depth keep kind =>
      cases read
      exact passOver_awaits noted kind c
    next =>
      have mode : after.mode = .plain := by
        have turns := takeIn_turns (noting reader c) c
        dsimp only [noting] at turns
        rw [read] at turns
        exact turns.1.trans plain
      rw [mode] at settles
      exact takeIn_awaits noted plain (settles.resolve_right (by decide)) read

theorem Poised.read_awaits (poised : Poised reader lag (c :: rest)) (read : reader.read false c rest.head? = .ok after)
    (settles : (maskOf reader.mode).settles c = true ∨ inComment (maskOf after.mode) = true) : Awaits after.level := by
  have agrees := poised.agrees
  have waiting := poised.settled
  cases mode : reader.mode <;> rw [mode] at settles agrees waiting <;> simp only [SheetReader.read, mode] at read
  case plain => exact readPlain_awaits poised mode read settles
  case commentMark =>
    cases read
    exact waiting (.inr rfl)
  case comment =>
    cases read
    split <;> exact waiting (.inr rfl)
  case commentEnd =>
    cases read
    exact waiting (.inr rfl)
  case lineComment => exact absurd (by rw [mode]; rfl) poised.known
  case interpolation => exact absurd (by rw [mode]; rfl) poised.known
  case string =>
    split_ifs at read <;> cases read <;> simp [Mask.settles, Mask.idle, maskOf, inComment] at settles
  case stringEscape =>
    cases read
    simp [Mask.settles, Mask.idle, maskOf, inComment] at settles
  case escape =>
    cases read
    exact awaits_keep agrees.1 (by simpa [Mask.settles, Mask.idle, maskOf, inComment] using settles)

theorem Poised.step (poised : Poised reader lag (c :: rest)) (stepped : reader.step false c rest.head? = .ok after) :
    Poised after ((maskOf reader.mode).settles c) rest ∧ maskOf after.mode = (maskOf reader.mode).next c rest.head? := by
  obtain ⟨moved, read, rfl⟩ := read_of_step stepped
  have calm := poised.spared.calm
  have mask := mask_read read calm
  have known : maskOf moved.mode ≠ .beyond := mask ▸ calm
  refine ⟨⟨known, ?_, ?_, ?_⟩, mask⟩
  · dsimp only
    rw [mask]
    exact poised.spared.2
  · refine poised.holds.step stepped ?_
    intro depth start mode
    exact known (by rw [mode]; rfl)
  · intro settles
    have awaits := poised.read_awaits read settles
    exact awaits

end Awaiting

section Blanks

variable {reader other after : SheetReader} {lag : Bool} {c d : Char} {s rest : Text} {ahead : Option Char}

/-- A blank is kept or passed over. -/
def whitened (reader : SheetReader) (c : Char) : SheetReader :=
  { reader with
    here := reader.here.after c
    level := if maskOf reader.mode == .plain && !reader.level.isPassed then reader.level.keep c else reader.level }

theorem step_whitened (idle : (maskOf reader.mode).idle = true) (white : isBlank c = true) (rest : Text) :
    reader.step false c rest.head? = .ok (whitened reader c) := by
  have bare := SheetSeam.blank_bare white
  obtain ⟨-, star, hash, -⟩ := blank_apart white
  have noted : noting reader c = reader := by simp [noting, Level.begin, white]
  cases mode : reader.mode <;> rw [mode] at idle <;> try cases idle
  case plain =>
    have unmasked : c ∉ masking := fun member => bare (by simp [structural, member])
    cases passed : reader.level.isPassed with
    | false =>
      have taken : (noting reader c).takeIn c = .ok { reader with level := reader.level.keep c } := by
        simp only [structural, List.mem_cons, not_or] at bare
        simp [noted, SheetReader.takeIn, bare]
      rw [step_taken mode passed unmasked (fun begins => absurd begins hash) taken]
      simp [whitened, mode, maskOf, passed]
    | true =>
      unfold Level.isPassed at passed
      split at passed
      next depth keep kind =>
        simp only [structural, List.mem_cons, not_or] at bare
        rw [step_passed mode kind unmasked, noted]
        simp [SheetReader.passOver, whitened, bare, Level.isPassed, kind]
      next => cases passed
  case comment =>
    simp [SheetReader.step, SheetReader.read, mode, star, Except.map, whitened, maskOf]

theorem Poised.whitened (poised : Poised reader lag (c :: s)) (idle : (maskOf reader.mode).idle = true)
    (white : isBlank c = true) :
    Poised (AiredSheets.whitened reader c) true s ∧ maskOf (AiredSheets.whitened reader c).mode = maskOf reader.mode := by
  have settles : (maskOf reader.mode).settles c = true := by simp [Mask.settles, idle, white]
  obtain ⟨onward, mask⟩ := poised.step (step_whitened idle white s)
  rw [settles] at onward
  exact ⟨onward, rfl⟩

/-- What may be said of an item in front of a brace. -/
def Shutting (s t : Text) : Prop :=
  Alike s t ∧ ∀ brace, brace = '\x7b' ∨ brace = '\x7d' → Interchangeable (s ++ [brace]) (t ++ [brace])

theorem Poised.bare (poised : Poised reader lag rest) (plain : maskOf reader.mode = .plain) :
    Bare (Nest.read {} reader.level.item.reverse) := by
  have agrees := poised.agrees
  cases mode : reader.mode <;> rw [mode] at plain agrees <;> first | exact agrees | cases plain

/-- Where a word is awaited a blank is of no account, neither to the one reader ... -/
theorem drop_blank (abreast : Abreast Interchangeable reader other) (poised : Poised reader true rest)
    (white : isBlank c = true) : Abreast Interchangeable (whitened reader c) other := by
  refine ⟨abreast.mode, ?_, abreast.outer, abreast.count⟩
  unfold whitened
  dsimp only
  split
  next kept =>
    simp only [Bool.and_eq_true, beq_iff_eq, Bool.not_eq_true'] at kept
    have blank := interchangeable_blank (poised.bare kept.1) (poised.settled (.inl rfl) kept.2) white
    refine { abreast.level with item := fun read => ?_ }
    rw [Level.keep, List.reverse_cons]
    exact blank.symm.trans (abreast.level.item read)
  next => exact abreast.level

/-- ... nor to the other one. -/
theorem add_blank (abreast : Abreast Interchangeable reader other) (poised : Poised other true rest)
    (white : isBlank c = true) : Abreast Interchangeable reader (whitened other c) := by
  refine ⟨abreast.mode, ?_, abreast.outer, abreast.count⟩
  unfold whitened
  dsimp only
  split
  next kept =>
    simp only [Bool.and_eq_true, beq_iff_eq, Bool.not_eq_true'] at kept
    have blank := interchangeable_blank (poised.bare kept.1) (poised.settled (.inl rfl) kept.2) white
    refine { abreast.level with item := fun read => ?_ }
    rw [Level.keep, List.reverse_cons]
    exact (abreast.level.item read).trans blank
  next => exact abreast.level

/-- In front of a brace it is of no account anywhere. -/
theorem shutting_blank (abreast : Abreast Interchangeable reader other) (poised : Poised other lag rest)
    (white : isBlank c = true) : Abreast Shutting reader (whitened other c) := by
  refine ⟨abreast.mode, ?_, abreast.outer, abreast.count⟩
  unfold whitened
  dsimp only
  split
  next kept =>
    simp only [Bool.and_eq_true, beq_iff_eq, Bool.not_eq_true'] at kept
    have bare := poised.bare kept.1
    refine { abreast.level with item := fun read => ⟨?_, ?_⟩ }
    · rw [Level.keep, List.reverse_cons]
      exact (abreast.level.item read).alike.trans (alike_blank bare white)
    · intro brace braces
      have other : isNameChar brace = false := by rcases braces with rfl | rfl <;> rfl
      rw [Level.keep, List.reverse_cons, List.append_assoc]
      exact ((abreast.level.item read).snoc brace).trans (interchangeable_before bare white other)
  next =>
    exact { abreast.level with item := fun read =>
      ⟨(abreast.level.item read).alike, fun brace _ => (abreast.level.item read).snoc brace⟩ }

/-- At a brace of a level that is read both items end, or both go on with it. -/
theorem takeIn_brace (abreast : Abreast Shutting reader other) (read : reader.level.isPassed = false)
    (brace : c = '\x7b' ∨ c = '\x7d') :
    Outcomes (Abreast Interchangeable) (fun _ _ => True) (reader.takeIn c) (other.takeIn c) := by
  have kept : Abreast Interchangeable { reader with level := reader.level.keep c }
      { other with level := other.level.keep c } := by
    refine abreast.at_level { abreast.level with item := fun read => ?_ }
    have longer := (abreast.level.item read).2 c brace
    rwa [← List.reverse_cons, ← List.reverse_cons] at longer
  rcases brace with rfl | rfl
  · have opening : ∀ reader : SheetReader, reader.takeIn '\x7b' = if reader.level.parens = 0 then .ok reader.enter else
        .ok { reader with level := reader.level.keep '\x7b' } := fun reader => by simp [SheetReader.takeIn]
    rw [opening, opening, abreast.level.parens]
    split
    · exact abreast.enter read And.left
    · exact kept
  · have closing : ∀ reader : SheetReader, reader.takeIn '\x7d' = if reader.level.parens = 0 then reader.leave else
        .ok { reader with level := reader.level.keep '\x7d' } := fun reader => by simp [SheetReader.takeIn]
    rw [closing, closing, abreast.level.parens]
    split
    · exact abreast.leave read And.left
    · exact kept

theorem abreast_moved {outcome outcome' : Except Fault SheetReader} (same : Outcomes (Abreast Interchangeable) (fun _ _ => True)
    outcome outcome') (here here' : Place) : Outcomes (Abreast Interchangeable) (fun _ _ => True)
      (outcome.map fun after => { after with here }) (outcome'.map fun after => { after with here := here' }) := by
  cases outcome <;> cases outcome'
  case ok.ok => exact ⟨same.mode, same.level, same.outer, same.count⟩
  all_goals exact same

/-- A brace is read the same behind one more blank. -/
theorem step_brace (abreast : Abreast Shutting reader other) (brace : c = '\x7b' ∨ c = '\x7d')
    (ahead : Option Char) (settled : reader.mode ≠ .plain → Abreast Interchangeable reader other) :
    Outcomes (Abreast Interchangeable) (fun _ _ => True) (reader.step false c ahead) (other.step false c ahead) := by
  by_cases plain : reader.mode = .plain
  · have plain' : other.mode = .plain := by
      have modes := abreast.mode
      rw [plain] at modes
      generalize other.mode = mode at modes
      cases modes
      rfl
    cases read : reader.level.isPassed with
    | true =>
      -- Of a level that is passed over the item does not count.
      have same : Abreast Interchangeable reader other := abreast.at_level
        { abreast.level with item := fun unpassed => nomatch read.symm.trans unpassed }
      exact abreast_lockstep.step same false c ahead
    | false =>
      have noted : Abreast Shutting (noting reader c) (noting other c) := abreast.at_level (abreast.level.begin _ _ c)
      have plainly : ∀ reader : SheetReader, reader.mode = .plain → reader.level.isPassed = false →
          reader.read false c ahead = (noting reader c).takeIn c := by
        intro reader plain read
        have kind := (SheetSeam.begin_same reader.level reader.here c).1
        unfold Level.isPassed at read
        rcases brace with rfl | rfl <;> cases own : reader.level.kind <;>
          simp_all [SheetReader.read, SheetReader.readPlain, noting, isQuote]
      have kind := (SheetSeam.begin_same reader.level reader.here c).1
      have read' : (noting reader c).level.isPassed = false := by
        rw [← read, Level.isPassed, Level.isPassed, noting, kind]
      have taken := takeIn_brace noted read' brace
      rw [← plainly reader plain read, ← plainly other plain' (abreast.level.isPassed.trans read)] at taken
      exact abreast_moved taken _ _
  · exact abreast_lockstep.step (settled plain) false c ahead

end Blanks

section Runs

variable {mask : Mask} {reader other after : SheetReader} {lag : Bool} {c : Char} {s t rest : Text}

/-- The same is found, but for blanks outside of strings and for places. -/
def Found (findings others : Findings) : Prop := squeezedTrees others.blocks = squeezedTrees findings.blocks

def Same : Except Fault Findings → Except Fault Findings → Prop := Outcomes Found fun _ _ => True

theorem Same.trans {first second third : Except Fault Findings} (one : Same first second) (two : Same second third) :
    Same first third := by
  cases first <;> cases second <;> cases third <;> first | exact one.elim | exact two.elim | trivial | exact Eq.trans two one

/-- Whether a text may end here. -/
def ends : ReadMode → Bool
  | .plain | .commentEnd | .lineComment | .escape => true
  | .commentMark _ | .comment _ | .string .. | .stringEscape .. | .interpolation .. => false

theorem finish_cases (reader : SheetReader) :
    (ends reader.mode = true ∧ reader.outer = [] ∧
      ∃ findings, reader.finish = .ok findings ∧ findings.blocks = reader.level.blocks.reverse) ∨
    ((ends reader.mode = false ∨ reader.outer ≠ []) ∧ ∃ fault, reader.finish = .error fault) := by
  unfold SheetReader.finish
  cases mode : reader.mode
  case plain | commentEnd | lineComment | escape =>
    cases levels : reader.outer with
    | cons around outer => exact .inr ⟨.inr nofun, _, rfl⟩
    | nil => exact .inl ⟨rfl, rfl, _, rfl, congrArg List.reverse (flush_blocks reader.level)⟩
  all_goals exact .inr ⟨.inl rfl, _, rfl⟩

/-- The same comes of readers that may end, or not, with the same blocks. -/
theorem finish_same (modes : ends other.mode = ends reader.mode) (outer : other.outer = [] ↔ reader.outer = [])
    (blocks : squeezedTrees other.level.blocks = squeezedTrees reader.level.blocks) : Same reader.finish other.finish := by
  obtain ⟨own, bottom, findings, found, listed⟩ | ⟨stuck, fault, fails⟩ := finish_cases reader <;>
    obtain ⟨own', bottom', findings', found', listed'⟩ | ⟨stuck', fault', fails'⟩ := finish_cases other
  · rw [found, found']
    show squeezedTrees findings'.blocks = squeezedTrees findings.blocks
    rw [listed, listed', squeezedTrees_reverse, squeezedTrees_reverse, blocks]
  · rcases stuck' with stuck' | stuck'
    · exact nomatch stuck'.symm.trans (modes.trans own)
    · exact absurd (outer.mpr bottom) stuck'
  · rcases stuck with stuck | stuck
    · exact nomatch stuck.symm.trans (modes.symm.trans own')
    · exact absurd (outer.mp bottom') stuck
  · rw [fails, fails']
    trivial

theorem finish_abreast (abreast : Abreast Interchangeable reader other) : Same reader.finish other.finish := by
  have modes := abreast.mode
  have outside := abreast.outer
  refine finish_same ?_ ?_ abreast.level.blocks
  · generalize reader.mode = mode at modes
    generalize other.mode = mode' at modes
    cases modes <;> rfl
  · generalize reader.outer = outer at outside
    generalize other.outer = outer' at outside
    cases outside <;> simp

theorem outcome_ok (stepped : reader.step false c s.head? = .ok after) :
    outcome false reader (c :: s) = outcome false after s := by
  simp only [outcome, SheetReader.run, stepped]

theorem outcome_fails {fault : Fault} (stepped : reader.step false c s.head? = .error fault) :
    outcome false reader (c :: s) = .error fault := by
  simp only [outcome, SheetReader.run, stepped]

/-- One character that both readers read carries them on to what comes of the rest. -/
theorem outcome_both (stepped : Outcomes (Abreast Interchangeable) (fun _ _ => True) (reader.step false c s.head?)
    (other.step false c t.head?)) (onward : ∀ {after after'}, reader.step false c s.head? = .ok after →
      other.step false c t.head? = .ok after' → Abreast Interchangeable after after' →
        Same (outcome false after s) (outcome false after' t)) :
    Same (outcome false reader (c :: s)) (outcome false other (c :: t)) := by
  cases own : reader.step false c s.head? <;> cases own' : other.step false c t.head? <;> rw [own, own'] at stepped
  case ok.ok =>
    rw [outcome_ok own, outcome_ok own']
    exact onward own own' stepped
  case error.error =>
    rw [outcome_fails own, outcome_fails own']
    trivial
  all_goals exact stepped.elim

theorem plain_of_mask {mode : ReadMode} (plain : maskOf mode = .plain) : mode = .plain := by
  cases mode <;> first | rfl | cases plain

theorem settles_brace (idle : mask.idle = true) (brace : c = '\x7b' ∨ c = '\x7d') : mask.settles c = true := by
  have mark : isMark c = true := by rcases brace with rfl | rfl <;> rfl
  simp [Mask.settles, idle, mark]

theorem masks_abreast {items : Text → Text → Prop} (abreast : Abreast items reader other) :
    maskOf other.mode = maskOf reader.mode := by
  have modes := abreast.mode
  generalize reader.mode = mode at modes
  generalize other.mode = mode' at modes
  cases modes <;> rfl

/-- A brace behind a blank is read like the brace alone. -/
theorem step_behind_blank {d : Char} (abreast : Abreast Interchangeable reader other) (idle : (maskOf reader.mode).idle = true)
    (poised : Poised other lag (d :: c :: t)) (white : isBlank d = true) (brace : c = '\x7b' ∨ c = '\x7d') :
    Outcomes (Abreast Interchangeable) (fun _ _ => True) (reader.step false c s.head?)
      ((whitened other d).step false c t.head?) := by
  have masks := masks_abreast abreast
  have idle' : (maskOf (whitened other d).mode).idle = true := masks.symm ▸ idle
  have known : maskOf (whitened other d).mode ≠ .beyond := poised.known
  have same : (whitened other d).step false c t.head? = (whitened other d).step false c s.head? :=
    step_ahead (by rw [next_brace idle' brace, next_brace idle' brace]) (by rw [next_brace idle' brace]; exact known)
  rw [same]
  refine step_brace (shutting_blank abreast poised white) brace s.head? fun apart => ?_
  -- In a comment the blank is not kept.
  have comment : maskOf reader.mode ≠ .plain := fun plain => apart (plain_of_mask plain)
  refine ⟨abreast.mode, ?_, abreast.outer, abreast.count⟩
  rw [whitened, masks, beq_false_of_ne comment]
  exact abreast.level

/-- A blank at the end of a text changes nothing, also where it stands in a string that is not closed. -/
theorem finish_blank (spared : Spared (maskOf reader.mode) (c :: s)) (white : isBlank c = true) :
    ∃ after, reader.step false c s.head? = .ok after ∧ Same after.finish reader.finish := by
  obtain ⟨slash, star, -, escape, double, single⟩ := blank_apart white
  have own := spared.1
  by_cases idle : (maskOf reader.mode).idle = true
  · refine ⟨_, step_whitened idle white s, finish_same rfl Iff.rfl ?_⟩
    unfold whitened
    dsimp only
    split <;> rfl
  · unfold SheetReader.step SheetReader.read
    cases mode : reader.mode <;> rw [mode] at own idle
    case commentMark => exact absurd (beq_iff_eq.mp own) star
    case commentEnd => exact absurd (beq_iff_eq.mp own) slash
    case lineComment | interpolation => exact absurd own Bool.false_ne_true
    case plain | comment => exact absurd rfl idle
    case escape | stringEscape => exact ⟨_, rfl, finish_same (by rw [mode]; rfl) Iff.rfl rfl⟩
    case string quote start =>
      simp only [maskOf, Mask.spares, Bool.and_eq_true, bne_iff_ne, ne_eq, isQuote, Bool.or_eq_true, beq_iff_eq] at own
      obtain ⟨⟨quotes, -⟩, feed⟩ := own
      have inside : c ≠ quote := by rcases quotes with rfl | rfl <;> assumption
      refine ⟨{ reader with level := reader.level.keep c, here := reader.here.after c }, ?_, finish_same rfl Iff.rfl rfl⟩
      simp [escape, inside, feed, Except.map, mode]

theorem outcome_blanks (poised : Poised reader lag s) (white : ∀ c ∈ s, isBlank c = true) :
    Same (outcome false reader s) reader.finish := by
  induction s generalizing reader lag with
  | nil =>
    show Same reader.finish reader.finish
    exact finish_same rfl Iff.rfl rfl
  | cons c s ih =>
    obtain ⟨own, others⟩ := List.forall_mem_cons.mp white
    obtain ⟨after, stepped, same⟩ := finish_blank poised.spared own
    rw [outcome_ok stepped]
    exact (ih (poised.step stepped).1 others).trans same

/-- Texts that differ in blanks only are both accepted or both not, and the same is found in them. -/
theorem outcome_aired (aired : Aired mask lag s t) (masked : maskOf reader.mode = mask) (poised : Poised reader lag s)
    (poised' : Poised other lag t) (abreast : Abreast Interchangeable reader other) :
    Same (outcome false reader s) (outcome false other t) := by
  induction aired generalizing reader other with
  | ended white => exact (outcome_blanks poised white).trans (finish_abreast abreast)
  | @both mask lag c s t ahead rest ih =>
    subst masked
    have masks := masks_abreast abreast
    have same : other.step false c t.head? = other.step false c s.head? :=
      step_ahead (by rw [masks, ahead]) (by rw [masks]; exact poised.spared.calm)
    refine outcome_both (same ▸ abreast_lockstep.step abreast false c s.head?) ?_
    intro after after' stepped stepped' abreast'
    obtain ⟨onward, mask⟩ := poised.step stepped
    obtain ⟨onward', -⟩ := poised'.step stepped'
    rw [masks] at onward'
    exact ih mask onward onward' abreast'
  | @drop mask c s t idle white rest ih =>
    subst masked
    have stepped := step_whitened idle white s
    have onward := poised.whitened idle white
    rw [outcome_ok stepped]
    exact ih onward.2 onward.1 poised' (drop_blank abreast poised white)
  | @add mask c s t idle white rest ih =>
    subst masked
    have masks := masks_abreast abreast
    have idle' : (maskOf other.mode).idle = true := by rw [masks, idle]
    have stepped := step_whitened idle' white t
    have onward := poised'.whitened idle' white
    rw [outcome_ok stepped]
    exact ih rfl poised onward.1 (add_blank abreast poised' white)
  | @brace mask lag c d s t idle white brace rest ih =>
    subst masked
    have masks := masks_abreast abreast
    have idle' : (maskOf other.mode).idle = true := by rw [masks, idle]
    obtain ⟨between, mask⟩ := poised'.whitened idle' white
    rw [outcome_ok (step_whitened idle' white (c :: t))]
    refine outcome_both (step_behind_blank abreast idle poised' white brace) ?_
    intro after after' stepped stepped' abreast'
    obtain ⟨onward, next⟩ := poised.step stepped
    obtain ⟨onward', -⟩ := between.step stepped'
    rw [settles_brace idle brace] at onward
    rw [mask, settles_brace idle' brace] at onward'
    rw [next_brace idle brace] at next
    exact ih next onward onward' abreast'

end Runs

end CascadeLens.Proofs.AiredSheets
