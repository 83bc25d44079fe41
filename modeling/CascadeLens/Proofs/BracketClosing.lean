import CascadeLens.Proofs.NestReading
import CascadeLens.Text.Find

/-! The bracket that closes another. The search for it keeps a balance that can go below zero, and the reader that cuts
text keeps a depth that cannot. Behind an opening bracket both are the same number until it is zero again, which is
where the search ends, so what the search finds is never cut. -/

namespace CascadeLens.Proofs.BracketClosing
open Text TextShape NestReading

/-- Some bracket is open behind every character of a text. -/
def StaysOpen (nest : Nest) (s : Text) : Prop := Along (fun nest c => 0 < (nest.step c).depth) nest s

/-- How far ahead the brackets are closed that are open where a reader stands. -/
def closingBehind (nest : Nest) (s : Text) : Option Nat := closingFrom nest.depth nest.quote nest.escaped s

section Reading

variable {nest : Nest} {c closer : Char} {s inner rest : Text}

/-- The last open bracket is closed by a closing bracket, and nothing is left open then. -/
theorem closed_last (opened : 0 < nest.depth) (closed : (nest.step c).depth = 0) :
    isCloser c = true ∧ nest.step c = {} := by
  obtain ⟨depth, quote, escaped⟩ := nest
  replace opened : 0 < depth := opened
  unfold Nest.step at closed ⊢
  grind

/-- While a bracket is open, a character moves the balance as it moves the depth. -/
theorem closing_step (opened : 0 < nest.depth) (c : Char) (rest : Text) :
    closingBehind nest (c :: rest) =
      if (nest.step c).depth = 0 then some 0 else (closingBehind (nest.step c) rest).map (· + 1) := by
  obtain ⟨depth, quote, escaped⟩ := nest
  replace opened : 0 < depth := opened
  -- Both tell characters apart by the same cases, and a closing bracket is the only one that lowers a number.
  have lower : ((depth - 1 : Nat) : Int) = (depth : Int) - 1 := by omega
  simp only [closingBehind, closingFrom, Nest.step]
  grind

theorem depth_of_open (opened : 0 < nest.depth) (stays : StaysOpen nest s) : 0 < (nest.read s).depth := by
  induction s generalizing nest with
  | nil => exact opened
  | cons c rest ih => exact ih stays.1 stays.2

theorem StaysOpen.take (stays : StaysOpen nest s) (length : Nat) : StaysOpen nest (s.take length) := by
  rw [StaysOpen, ← List.take_append_drop length s] at stays
  exact (along_append.mp stays).1

/-- Behind an open bracket no character cuts. -/
theorem StaysOpen.uncut (opened : 0 < nest.depth) (stays : StaysOpen nest s) (mark : Char → Bool) :
    Along (Uncut mark) nest s := by
  induction s generalizing nest with
  | nil => trivial
  | cons c rest ih =>
    refine ⟨?_, ih stays.1 stays.2⟩
    simp [Uncut, Nest.cutsAt, Nest.outside, Nat.ne_of_gt opened]

/-- The search passes over what stays open. -/
theorem closing_over (opened : 0 < nest.depth) (stays : StaysOpen nest s) (rest : Text) :
    closingBehind nest (s ++ rest) = (closingBehind (nest.read s) rest).map (· + s.length) := by
  induction s generalizing nest with
  | nil =>
    rw [List.nil_append, List.length_nil]
    exact Option.map_id'.symm
  | cons c s ih =>
    have inside : 0 < (nest.step c).depth := stays.1
    rw [List.cons_append, closing_step opened, if_neg (Nat.ne_of_gt inside), ih inside stays.2, Option.map_map]
    rfl

/-- Either a bracket stays open to the end of a text, or there is a first character that closes the last one. -/
theorem open_or_closed (nest : Nest) (s : Text) : StaysOpen nest s ∨ ∃ inner closer after,
    s = inner ++ closer :: after ∧ StaysOpen nest inner ∧ ((nest.read inner).step closer).depth = 0 := by
  induction s generalizing nest with
  | nil => exact Or.inl trivial
  | cons c rest ih =>
    rcases Nat.eq_zero_or_pos (nest.step c).depth with closed | opened
    · exact Or.inr ⟨[], c, rest, rfl, trivial, closed⟩
    · rcases ih (nest.step c) with stays | ⟨inner, closer, after, rfl, stays, closed⟩
      · exact Or.inl ⟨opened, stays⟩
      · exact Or.inr ⟨c :: inner, closer, after, rfl, ⟨opened, stays⟩, closed⟩

end Reading

section Groups

variable {s inner rest : Text} {opener closer : Char} {start stop : Nat}

/-- What stands from an opening bracket to the bracket that closes it, both included. -/
structure BracketGroup (s : Text) (start stop : Nat) : Prop where
  later : start < stop
  closer : ∃ c, s[stop]? = some c ∧ isCloser c = true
  whole : ∀ mark, splitTopLevel mark (slice s start (stop + 1)) = [trim (slice s start (stop + 1))]
  opened : ∀ last, start ≤ last → last < stop → 0 < (Nest.read {} (slice s start (last + 1))).depth
  closed : Nest.read {} (slice s start (stop + 1)) = {}

theorem opener_cases (opens : isOpener opener = true) : opener = '(' ∨ opener = '[' := by
  simpa [isOpener] using opens

theorem step_opener (opens : isOpener opener = true) : Nest.step {} opener = within 1 := by
  rcases opener_cases opens with rfl | rfl <;> rfl

theorem read_opened (opens : isOpener opener = true) (s : Text) : Nest.read {} (opener :: s) = (within 1).read s := by
  rw [Nest.read, List.foldl_cons, step_opener opens]
  rfl

theorem slice_opened (opened : s.drop start = opener :: rest) (length : Nat) :
    slice s start (start + length + 1) = opener :: rest.take length := by
  have count : start + length + 1 - start = length + 1 := by omega
  rw [slice, opened, count, List.take_succ_cons]

theorem depth_slice (opens : isOpener opener = true) (opened : s.drop start = opener :: (inner ++ rest))
    (stays : StaysOpen (within 1) inner) {last : Nat} (behind : start ≤ last) (before : last ≤ start + inner.length) :
    0 < (Nest.read {} (slice s start (last + 1))).depth := by
  obtain ⟨length, rfl⟩ := Nat.exists_eq_add_of_le behind
  rw [slice_opened opened, read_opened opens, List.take_append_of_le_length (by omega)]
  exact depth_of_open Nat.one_pos (stays.take length)

theorem findClosing_opened (opens : isOpener opener = true) (opened : s.drop start = opener :: rest) :
    findClosing s start = (closingBehind (within 1) rest).map (start + · + 1) := by
  have first : closingFrom 0 none false (opener :: rest) = (closingBehind (within 1) rest).map (· + 1) := by
    rcases opener_cases opens with rfl | rfl <;> rfl
  rw [findClosing, opened, first, Option.map_map]
  congr 1
  funext length
  simp only [Function.comp_apply]
  omega

theorem solid_of_bracket {c : Char} (bracket : isOpener c = true ∨ isCloser c = true) : isBlank c = false := by
  by_contra white
  have flat := blank_flat (Bool.not_eq_false _ ▸ white)
  simp [flat] at bracket

/-- Some bracket is open behind every character from an opening one on. -/
def OpenToEnd (s : Text) (start : Nat) : Prop :=
  ∀ last, start ≤ last → last < s.length → 0 < (Nest.read {} (slice s start (last + 1))).depth

theorem BracketGroup.not_open (group : BracketGroup s start stop) : ¬ OpenToEnd s start := by
  intro opened
  obtain ⟨closer, found, -⟩ := group.closer
  obtain ⟨inside, -⟩ := List.getElem?_eq_some_iff.mp found
  have last := opened stop (Nat.le_of_lt group.later) inside
  rw [group.closed] at last
  cases last

/-- A group is no longer than it has to be: the reader is outside again behind its last bracket only. -/
theorem BracketGroup.unique {other : Nat} (group : BracketGroup s start stop) (group' : BracketGroup s start other) :
    stop = other := by
  rcases Nat.lt_trichotomy stop other with before | same | behind
  · have opened := group'.opened stop (Nat.le_of_lt group.later) before
    rw [group.closed] at opened
    cases opened
  · exact same
  · have opened := group.opened other (Nat.le_of_lt group'.later) behind
    rw [group'.closed] at opened
    cases opened

/-- Cutting leaves a text whole in which the first bracket stays open up to the last character. -/
theorem whole_of_open (opens : isOpener opener = true) (stays : StaysOpen (within 1) inner) (closes : isCloser closer = true)
    (mark : Char → Bool) : Whole mark (opener :: (inner ++ [closer])) := by
  refine ⟨List.cons_ne_nil _ _, ⟨?_, ?_⟩, ?_⟩
  · intro c first
    obtain rfl := Option.some.inj first
    exact solid_of_bracket (Or.inl opens)
  · intro c last
    rw [← List.cons_append, List.getLast?_concat] at last
    obtain rfl := Option.some.inj last
    exact solid_of_bracket (Or.inr closes)
  · refine ⟨by simp [Uncut, Nest.cutsAt, opens], ?_⟩
    rw [step_opener opens]
    apply along_append.mpr
    refine ⟨stays.uncut Nat.one_pos mark, ?_, trivial⟩
    simp [Uncut, Nest.cutsAt, closes]

theorem group_of_closed (opens : isOpener opener = true) (opened : s.drop start = opener :: (inner ++ closer :: rest))
    (stays : StaysOpen (within 1) inner) (closed : (((within 1).read inner).step closer).depth = 0) :
    BracketGroup s start (start + inner.length + 1) := by
  obtain ⟨closes, settled⟩ := closed_last (depth_of_open Nat.one_pos stays) closed
  have text : slice s start (start + inner.length + 1 + 1) = opener :: (inner ++ [closer]) := by
    rw [Nat.add_assoc start, slice_opened opened, List.take_length_add_append]
    rfl
  have whole (mark : Char) := whole_of_open opens stays closes (· == mark)
  refine ⟨by omega, ⟨closer, ?_, closes⟩, ?_, ?_, ?_⟩
  · rw [Nat.add_assoc, ← List.getElem?_drop, opened, List.getElem?_cons_succ, List.getElem?_append_right (Nat.le_refl _),
      Nat.sub_self]
    rfl
  · intro mark
    rw [text, trim_eq_self (whole mark).trimmed]
    exact (whole mark).split
  · intro last behind before
    exact depth_slice opens opened stays behind (by omega)
  · rw [text, read_opened opens, read_append]
    exact settled

theorem closing_cases (opens : isOpener opener = true) (opened : s.drop start = opener :: rest) :
    (∃ stop, findClosing s start = some stop ∧ BracketGroup s start stop) ∨
      findClosing s start = none ∧ OpenToEnd s start := by
  have search := findClosing_opened opens opened
  rcases open_or_closed (within 1) rest with stays | ⟨inner, closer, after, rfl, stays, closed⟩
  · right
    rw [← List.append_nil rest] at opened search
    refine ⟨by rw [search, closing_over Nat.one_pos stays]; rfl, ?_⟩
    intro last behind inside
    have length := congrArg List.length opened
    rw [List.length_drop, List.length_cons, List.append_nil] at length
    exact depth_slice opens opened stays behind (by omega)
  · left
    refine ⟨start + inner.length + 1, ?_, group_of_closed opens opened stays closed⟩
    rw [search, closing_over Nat.one_pos stays, closing_step (depth_of_open Nat.one_pos stays), if_pos closed]
    simp

end Groups

/-- The bracket that is found for an opening one ends a group, which no mark cuts, and a group that begins there ends
with it. None is found only where a bracket stays open up to the end. -/
theorem closing_ends_group {s : Text} {start : Nat} (here : ∃ opener, s[start]? = some opener ∧ isOpener opener = true) :
    (∀ stop, findClosing s start = some stop ↔ BracketGroup s start stop) ∧
      (findClosing s start = none ↔ OpenToEnd s start) := by
  obtain ⟨opener, found, opens⟩ := here
  obtain ⟨inside, rfl⟩ := List.getElem?_eq_some_iff.mp found
  rcases closing_cases opens (List.drop_eq_getElem_cons inside) with ⟨stop, found, group⟩ | ⟨missing, opened⟩
  · refine ⟨fun other => ⟨?_, ?_⟩, iff_of_false (by simp [found]) group.not_open⟩
    · intro same
      obtain rfl := Option.some.inj (found.symm.trans same)
      exact group
    · intro group'
      rw [found, group.unique group']
  · exact ⟨fun stop => iff_of_false (by simp [missing]) fun group => group.not_open opened, iff_of_true missing opened⟩

/-- Escaped and quoted brackets close nothing. -/
theorem function_arguments_are_group :
    (∃ opener, ":is(.a\\), [b=\")\"]) .c".toList[3]? = some opener ∧ isOpener opener = true) ∧
      BracketGroup ":is(.a\\), [b=\")\"]) .c".toList 3 17 := by
  have here : ∃ opener, ":is(.a\\), [b=\")\"]) .c".toList[3]? = some opener ∧ isOpener opener = true :=
    ⟨'(', by decide, by decide⟩
  exact ⟨here, ((closing_ends_group here).1 17).mp (by decide)⟩

end CascadeLens.Proofs.BracketClosing
