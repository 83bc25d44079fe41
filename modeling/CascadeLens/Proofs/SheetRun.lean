import CascadeLens.Proofs.SheetStack

/-! What each character keeps of the stack of open blocks, and so what holds at the end of a sheet.
Whatever comments, strings and escapes do to the text of an item, they do not move its first character. -/

namespace CascadeLens.Proofs.SheetRun
open Text SheetSteps SheetForest SheetStack

section Readers

variable {source : Text} {reader after : SheetReader} {bound bound' : Nat} {c : Char}

/-- Where the innermost level has found blocks: in front of what it has begun. -/
def settled (reader : SheetReader) (bound : Nat) : Nat := (reader.level.itemStart.map (·.offset)).getD bound

/-- The invariant of a reader that has read up to some offset. -/
structure Holds (source : Text) (reader : SheetReader) (bound : Nat) : Prop where
  begun : ∀ place, reader.level.itemStart = some place → Begins source place ∧ place.offset ≤ bound
  stacked : Stacked source (settled reader bound) reader.count (reader.level :: reader.outer)
  resting : ∀ level ∈ reader.outer, level.itemStart = none

theorem Holds.settled_le (holds : Holds source reader bound) : settled reader bound ≤ bound := by
  unfold settled
  cases begun : reader.level.itemStart with
  | none => exact Nat.le_refl bound
  | some place => exact (holds.begun place begun).2

/-- A reader that goes on, or to the next item, on the same level. -/
structure Stays (reader after : SheetReader) : Prop where
  grows : Grows reader.level after.level []
  item : after.level.itemStart = reader.level.itemStart ∨ after.level.itemStart = none
  outer : after.outer = reader.outer
  count : after.count = reader.count

theorem Holds.stay (holds : Holds source reader bound) (stays : Stays reader after) (later : bound ≤ bound') :
    Holds source after bound' := by
  have before := holds.settled_le
  have moved : settled reader bound ≤ settled after bound' := by
    unfold settled at before ⊢
    rcases stays.item with same | none
    · rw [same]
      cases begun : reader.level.itemStart with
      | none => exact later
      | some place => exact Nat.le_refl _
    · rw [none]
      exact Nat.le_trans before later
  refine ⟨?_, ?_, by rw [stays.outer]; exact holds.resting⟩
  · intro place begun
    rcases stays.item with same | none
    · obtain ⟨begins, bounded⟩ := holds.begun place (same ▸ begun)
      exact ⟨begins, Nat.le_trans bounded later⟩
    · exact absurd (none.symm.trans begun) nofun
  · rw [stays.outer, stays.count]
    exact holds.stacked.wait stays.grows moved (Nat.le_refl _)

/-- The first character of an item is noted with its place. -/
theorem Holds.note (holds : Holds source reader reader.here.offset) (here : At source reader.here)
    (next : source[reader.here.offset]? = some c) : Holds source (noting reader c) reader.here.offset := by
  unfold noting Level.begin
  split
  case isTrue fresh =>
    rw [Bool.and_eq_true, Option.isNone_iff_eq_none, Bool.not_eq_true'] at fresh
    have stacked := holds.stacked
    rw [settled, fresh.1] at stacked
    refine ⟨?_, stacked.wait ⟨rfl, rfl, rfl, rfl⟩ (Nat.le_refl _) (Nat.le_refl _), holds.resting⟩
    rintro place ⟨⟩
    exact ⟨⟨here, c, next, fresh.2⟩, Nat.le_refl _⟩
  case isFalse => exact holds

/-- Neither the text of an item nor its parentheses nor the mode count. -/
theorem Holds.onward (holds : Holds source reader bound) (item : Text) (parens : Nat) (mode : ReadMode) :
    Holds source { reader with level := { reader.level with item, parens }, mode } (bound + 1) :=
  holds.stay ⟨⟨rfl, rfl, rfl, rfl⟩, Or.inl rfl, rfl, rfl⟩ (Nat.le_succ bound)

theorem grows_flush (level : Level) : Grows level level.flush [] := by
  unfold Level.flush
  split <;> exact ⟨rfl, rfl, rfl, rfl⟩

theorem flush_begun (level : Level) : level.flush.itemStart = none := by
  unfold Level.flush
  split <;> rfl

theorem close_begun (level around : Level) (here : Place) : (level.close around here).itemStart = around.itemStart := by
  unfold Level.close
  split <;> rfl

/-- The level that a brace opens has found nothing yet, and takes a place of its own if it may hold declarations
of a rule. -/
structure Fresh (level inner : Level) (here : Place) (count : Nat) : Prop where
  start : inner.start = level.itemStart.getD here
  atRules : level.atRules <+: inner.atRules
  blocks : inner.blocks = []
  begun : inner.itemStart = none
  own : ∀ order, ownOrder inner = some order → order = count ∧ inner.inStyle = true

theorem inner_fresh (level : Level) (here : Place) (count : Nat) : Fresh level (level.inner here count) here count := by
  have under := List.prefix_refl level.atRules
  unfold Level.inner
  split
  next behind _ =>
    dsimp only
    split_ifs
    · exact ⟨rfl, under, rfl, rfl, nofun⟩
    · refine ⟨rfl, List.prefix_append _ _, rfl, rfl, ?_⟩
      rintro order ⟨⟩
      exact ⟨rfl, rfl⟩
    · exact ⟨rfl, List.prefix_append _ _, rfl, rfl, nofun⟩
    · exact ⟨rfl, under, rfl, rfl, nofun⟩
  next =>
    refine ⟨rfl, under, rfl, rfl, ?_⟩
    rintro order ⟨⟩
    exact ⟨rfl, rfl⟩

theorem Holds.enter (holds : Holds source reader reader.here.offset) {place : Place}
    (begun : reader.level.itemStart = some place) :
    Holds source reader.enter (reader.here.offset + 1) := by
  have fresh := inner_fresh reader.level reader.here reader.count
  obtain ⟨begins, bounded⟩ := holds.begun place begun
  have start : (reader.level.inner reader.here reader.count).start = place := by rw [fresh.start, begun, Option.getD_some]
  have stacked := holds.stacked
  rw [settled, begun] at stacked
  have around : Stacked source place.offset reader.count (reader.level.clear :: reader.outer) :=
    stacked.wait ⟨rfl, rfl, rfl, rfl⟩ (Nat.le_refl _) (Nat.le_refl _)
  refine ⟨?_, ?_, List.forall_mem_cons.mpr ⟨rfl, holds.resting⟩⟩
  · intro other found
    exact absurd (fresh.begun.symm.trans found) nofun
  · have open_ : settled reader.enter (reader.here.offset + 1) = reader.here.offset + 1 := by
      rw [settled, SheetReader.enter, fresh.begun, Option.map_none, Option.getD_none]
    rw [open_]
    apply around.enter (start ▸ begins) (by rw [start]) fresh.atRules fresh.blocks
    · intro order own
      obtain ⟨same, inStyle⟩ := fresh.own order own
      refine ⟨same, ?_⟩
      rw [SheetReader.enter, if_pos inStyle, same]
    · omega
    · rw [SheetReader.enter]
      split
      · exact Nat.le_succ _
      · exact Nat.le_refl _

theorem Holds.leave (holds : Holds source reader reader.here.offset) (here : At source reader.here)
    (brace : source[reader.here.offset]? = some '\x7d') (left : reader.leave = .ok after) :
    Holds source after (reader.here.offset + 1) := by
  have ended := holds.settled_le
  have stacked := holds.stacked.wait (grows_flush reader.level) (Nat.le_refl _) (Nat.le_refl _)
  unfold SheetReader.leave at left
  cases outer : reader.outer with
  | nil => simp [outer] at left
  | cons around rest =>
    rw [outer] at left stacked
    obtain rfl := Except.ok.inj left
    obtain ⟨rested, resting⟩ := List.forall_mem_cons.mp (outer ▸ holds.resting)
    have begun : (reader.level.flush.close around reader.here).itemStart = none := (close_begun _ _ _).trans rested
    refine ⟨?_, ?_, resting⟩
    · intro place found
      exact absurd (begun.symm.trans found) nofun
    · rw [settled, begun]
      exact stacked.leave here brace ended

theorem Holds.leavePassed (holds : Holds source reader bound) (later : bound ≤ bound') (keep : Option AtRule) :
    Holds source (reader.leavePassed keep) bound' := by
  have stacked := holds.stacked
  have ended := holds.settled_le
  cases outer : reader.outer with
  | nil =>
    rw [SheetReader.leavePassed, outer]
    exact holds.stay ⟨⟨rfl, rfl, rfl, rfl⟩, Or.inl rfl, rfl, rfl⟩ later
  | cons around rest =>
    rw [outer] at stacked
    obtain ⟨rested, resting⟩ := List.forall_mem_cons.mp (outer ▸ holds.resting)
    have left : Holds source { reader with level := around, outer := rest } bound' := by
      refine ⟨?_, ?_, resting⟩
      · intro place found
        exact absurd (rested.symm.trans found) nofun
      · rw [settled, rested]
        exact stacked.drop (Nat.le_trans ended later)
    rw [SheetReader.leavePassed, outer]
    cases keep with
    | none => exact left
    | some rule =>
      dsimp only
      split
      · exact ⟨left.begun, left.stacked, left.resting⟩
      · exact ⟨left.begun, left.stacked, left.resting⟩

theorem Holds.passOver (holds : Holds source reader bound) {depth : Nat} {keep : Option AtRule}
    (kind : reader.level.kind = .passed depth keep) (c : Char) :
    Holds source (reader.passOver depth keep c) (bound + 1) := by
  have counted : ∀ depth,
      Holds source { reader with level := { reader.level with kind := .passed depth keep } } (bound + 1) := by
    intro depth
    have own : ownOrder { reader.level with kind := .passed depth keep } = ownOrder reader.level := by
      rw [ownOrder, ownOrder, kind]
    exact holds.stay ⟨⟨rfl, rfl, own, rfl⟩, Or.inl rfl, rfl, rfl⟩ (Nat.le_succ bound)
  unfold SheetReader.passOver
  dsimp only
  split_ifs
  · exact holds.onward _ _ _
  · exact holds.onward _ _ _
  · exact counted (depth + 1)
  · cases depth with
    | zero => exact holds.leavePassed (Nat.le_succ bound) keep
    | succ depth => exact counted depth
  · exact holds.onward _ _ _

theorem Holds.takeIn (holds : Holds source reader reader.here.offset) (here : At source reader.here)
    (begun : isBlank c = false → reader.level.itemStart.isSome = true) (next : source[reader.here.offset]? = some c)
    (taken : reader.takeIn c = .ok after) : Holds source after (reader.here.offset + 1) := by
  unfold SheetReader.takeIn at taken
  dsimp only at taken
  split_ifs at taken with opens closes ends enters leaves
  · cases taken
    exact holds.onward _ _ _
  · cases taken
    exact holds.onward _ _ _
  · cases taken
    exact holds.stay ⟨grows_flush reader.level, Or.inr (flush_begun reader.level), rfl, rfl⟩ (Nat.le_succ _)
  · cases taken
    obtain ⟨place, found⟩ := Option.isSome_iff_exists.mp (begun (by simp_all; decide))
    exact holds.enter found
  · exact holds.leave here (by simp_all) taken
  · cases taken
    exact holds.onward _ _ _

theorem noting_begun (reader : SheetReader) {c : Char} (filled : isBlank c = false) :
    (noting reader c).level.itemStart.isSome = true := by
  unfold noting Level.begin
  cases begun : reader.level.itemStart with
  | none => simp [filled]
  | some place => simp [begun]

theorem Holds.readPlain {lineComments : Bool} {upcoming : Option Char} (holds : Holds source reader reader.here.offset)
    (here : At source reader.here) (next : source[reader.here.offset]? = some c)
    (read : reader.readPlain lineComments c upcoming = .ok after) : Holds source after (reader.here.offset + 1) := by
  have noted := holds.note here next
  unfold SheetReader.readPlain at read
  dsimp only at read
  split_ifs at read
  · cases read
    exact holds.onward _ _ _
  · cases read
    exact holds.onward _ _ _
  · cases read
    exact noted.onward _ _ _
  · cases read
    exact noted.onward _ _ _
  · split at read
    next depth keep kind =>
      cases read
      exact noted.passOver kind c
    next =>
      cases read
      exact noted.onward _ _ _
  · split at read
    next depth keep kind =>
      cases read
      exact noted.passOver kind c
    next => exact noted.takeIn here (noting_begun reader) next read

theorem Holds.read {lineComments : Bool} {upcoming : Option Char} (holds : Holds source reader reader.here.offset)
    (here : At source reader.here) (next : source[reader.here.offset]? = some c)
    (read : reader.read lineComments c upcoming = .ok after) : Holds source after (reader.here.offset + 1) := by
  cases mode : reader.mode <;> simp only [SheetReader.read, mode] at read
  case plain => exact holds.readPlain here next read
  case lineComment =>
    split at read
    · have fresh : Holds source { reader with mode := .plain } reader.here.offset :=
        ⟨holds.begun, holds.stacked, holds.resting⟩
      exact fresh.readPlain here next read
    · cases read
      exact holds.onward _ _ _
  case comment =>
    cases read
    split <;> exact holds.onward _ _ _
  case string =>
    split_ifs at read
    all_goals
      cases read
      exact holds.onward _ _ _
  case interpolation =>
    split_ifs at read
    all_goals
      cases read
      exact holds.onward _ _ _
  all_goals
    cases read
    exact holds.onward _ _ _

theorem Holds.step {lineComments : Bool} {upcoming : Option Char} (holds : Holds source reader reader.here.offset)
    (here : At source reader.here) (next : source[reader.here.offset]? = some c)
    (stepped : reader.step lineComments c upcoming = .ok after) :
    Holds source after after.here.offset ∧ At source after.here ∧ after.here.offset = reader.here.offset + 1 := by
  obtain ⟨moved, read, rfl⟩ := read_of_step stepped
  have offset : (reader.here.after c).offset = reader.here.offset + 1 := behind_offset reader.here [c]
  have onward := holds.read here next read
  refine ⟨?_, here.after next, offset⟩
  rw [offset]
  exact ⟨onward.begun, onward.stacked, onward.resting⟩

theorem Holds.run {lineComments : Bool} {rest : Text} (holds : Holds source reader reader.here.offset)
    (here : At source reader.here)
    (left : source.drop reader.here.offset = rest) (run : reader.run lineComments rest = .ok after) :
    Holds source after after.here.offset := by
  -- A step needs the character at its place, so what is left of the source is part of what is kept.
  refine (run_keeps (P := fun reader rest => Holds source reader reader.here.offset ∧ At source reader.here ∧
    source.drop reader.here.offset = rest) ?_ ⟨holds, here, left⟩ run).1
  intro reader after c rest ⟨holds, here, left⟩ stepped
  have next : source[reader.here.offset]? = some c := by rw [← List.head?_drop, left, List.head?_cons]
  obtain ⟨onward, there, offset⟩ := holds.step here next stepped
  refine ⟨onward, there, ?_⟩
  rw [offset, ← List.drop_drop, left, List.drop_one, List.tail_cons]

theorem holds_initial (source : Text) : Holds source {} 0 :=
  ⟨nofun, fills_nil source _ _, by simp⟩

theorem Holds.finish (holds : Holds source reader bound) {findings : Findings} (finished : reader.finish = .ok findings) :
    ∃ room atRules, Fills source room atRules findings.blocks := by
  unfold SheetReader.finish at finished
  split at finished
  case h_1 | h_2 | h_3 | h_4 | h_5 => cases finished
  all_goals
    split at finished
    · cases finished
    · next outermost =>
      cases finished
      have stacked := holds.stacked.wait (grows_flush reader.level) (Nat.le_refl _) (Nat.le_refl _)
      rw [outermost] at stacked
      exact ⟨_, _, stacked⟩

/-- The blocks found in a sheet lie in one room. -/
theorem findings_fill {dialect : Dialect} {findings : Findings} (found : Findings.read dialect source = .ok findings) :
    ∃ room atRules, Fills source room atRules findings.blocks := by
  have start : At source ({} : Place) := ⟨Nat.zero_le _, rfl⟩
  unfold Findings.read at found
  split at found
  · cases found
  · next after run => exact ((holds_initial source).run start rfl run).finish found

end Readers

end CascadeLens.Proofs.SheetRun
