import CascadeLens.Proofs.FeatureSearch
import CascadeLens.Proofs.PassedBlocks
import CascadeLens.Proofs.SheetFaults

/-! Sheets in which nothing hides a brace. Whatever else their text spells, and whether their blocks are read or passed
over, they can be read exactly if their braces are balanced. -/

namespace CascadeLens.Proofs.BraceBalance
open Text TextShape SheetSteps SheetForest SheetRun SheetSimulation SheetSeam PassedBlocks SheetFaults FeatureSearch

/-- Text without parentheses, strings, escapes, comments and interpolations. -/
structure Unmasked (s : Text) : Prop where
  bare : ∀ c ∈ s, c ∉ ['(', ')', '"', '\'', '\\']
  uncommented : ¬ ['/', '*'] <:+: s
  uninterpolated : ¬ ['#', '\x7b'] <:+: s

instance (s : Text) : Decidable (Unmasked s) :=
  decidable_of_iff ((∀ c ∈ s, c ∉ ['(', ')', '"', '\'', '\\']) ∧ ¬ holds ['/', '*'] s = true ∧
      ¬ holds ['#', '\x7b'] s = true) (by
    rw [holds_iff, holds_iff]
    exact ⟨fun ⟨bare, comment, hash⟩ => ⟨bare, comment, hash⟩, fun ⟨bare, comment, hash⟩ => ⟨bare, comment, hash⟩⟩)

/-- More braces are closed than opened. -/
def Overclosed (s : Text) : Prop := s.count '\x7b' < s.count '\x7d'

instance (s : Text) : Decidable (Overclosed s) := inferInstanceAs (Decidable (_ < _))

structure Balanced (s : Text) : Prop where
  covered : ∀ front, front <+: s → ¬ Overclosed front
  even : s.count '\x7b' = s.count '\x7d'

/-- The brace behind a text is the first that closes nothing. -/
structure FirstStray (front : Text) : Prop where
  covered : ∀ shorter, shorter <+: front → ¬ Overclosed shorter
  stray : Overclosed (front ++ ['\x7d'])

section Counts

variable {s : Text} {depth left : Nat}

theorem balance_cons (depth : Nat) (c : Char) (rest : Text) : balanceFrom '\x7b' '\x7d' depth (c :: rest) =
    (balanceStep '\x7b' '\x7d' depth c).bind fun middle => balanceFrom '\x7b' '\x7d' middle rest := List.foldlM_cons

/-- The braces left open, if no part in front closes more than are open. -/
theorem balance_iff : balanceFrom '\x7b' '\x7d' depth s = some left ↔
    (∀ front, front <+: s → front.count '\x7d' ≤ depth + front.count '\x7b') ∧
      left + s.count '\x7d' = depth + s.count '\x7b' := by
  induction s generalizing depth with
  | nil =>
    have none : balanceFrom '\x7b' '\x7d' depth [] = some depth := rfl
    simp [none, eq_comm]
  | cons c rest ih =>
    have fronts : (∀ front, front <+: c :: rest → front.count '\x7d' ≤ depth + front.count '\x7b') ↔
        ∀ more, more <+: rest → (c :: more).count '\x7d' ≤ depth + (c :: more).count '\x7b' := by
      constructor
      · intro all more before
        exact all (c :: more) (List.cons_prefix_cons.mpr ⟨rfl, before⟩)
      · intro later front before
        cases front with
        | nil => simp
        | cons d more =>
          obtain ⟨rfl, inside⟩ := List.cons_prefix_cons.mp before
          exact later more inside
    rw [fronts, balance_cons]
    by_cases opens : c = '\x7b'
    · subst opens
      have step : balanceStep '\x7b' '\x7d' depth '\x7b' = some (depth + 1) := rfl
      have opened : ∀ more : Text, ('\x7b' :: more).count '\x7b' = more.count '\x7b' + 1 := by simp
      have closed : ∀ more : Text, ('\x7b' :: more).count '\x7d' = more.count '\x7d' := by simp
      rw [step, Option.bind_some, ih]
      simp only [opened, closed]
      exact and_congr (forall_congr' fun more => imp_congr_right fun _ => by omega) (by omega)
    by_cases closes : c = '\x7d'
    · subst closes
      have opened : ∀ more : Text, ('\x7d' :: more).count '\x7b' = more.count '\x7b' := by simp
      have closed : ∀ more : Text, ('\x7d' :: more).count '\x7d' = more.count '\x7d' + 1 := by simp
      cases depth with
      | zero =>
        have step : balanceStep '\x7b' '\x7d' 0 '\x7d' = none := rfl
        rw [step, Option.bind_none]
        refine iff_of_false nofun ?_
        rintro ⟨covered, -⟩
        have stray := covered [] List.nil_prefix
        simp at stray
      | succ depth =>
        have step : balanceStep '\x7b' '\x7d' (depth + 1) '\x7d' = some depth := rfl
        rw [step, Option.bind_some, ih]
        simp only [opened, closed]
        exact and_congr (forall_congr' fun more => imp_congr_right fun _ => by omega) (by omega)
    · have step : balanceStep '\x7b' '\x7d' depth c = some depth := by simp [balanceStep, opens, closes]
      rw [step, Option.bind_some, ih]
      simp [opens, closes]

theorem stray_step {c : Char} (stray : balanceStep '\x7b' '\x7d' depth c = none) : depth = 0 ∧ c = '\x7d' := by
  unfold balanceStep at stray
  split_ifs at stray with _ closes
  cases depth with
  | zero => exact ⟨rfl, closes⟩
  | succ depth => cases stray

theorem firstStray_of_balance (before : balanceFrom '\x7b' '\x7d' 0 s = some 0) : FirstStray s := by
  obtain ⟨covered, even⟩ := balance_iff.mp before
  constructor
  · intro shorter inside
    have enough := covered shorter inside
    unfold Overclosed
    omega
  · simp only [Overclosed, List.count_append]
    simp
    omega

end Counts

/-- The braces open at a reader: those of the levels, and those inside of a block that is passed over. -/
def openBraces (reader : SheetReader) : Nat := reader.outer.length + bracesIn reader.level.kind

/-- A reader that is in the middle of nothing but blocks. -/
structure Calm (reader : SheetReader) : Prop where
  plain : reader.mode = .plain
  bottom : Bottom reader.level reader.outer
  parens : reader.level.parens = 0
  around : ∀ level ∈ reader.outer, level.parens = 0 ∧ level.isPassed = false

/-- A character counts as a brace or not at all, with some braces open before it. -/
def Counts (depth : Nat) (here : Place) (c : Char) (outcome : Except Fault SheetReader) : Prop :=
  match balanceStep '\x7b' '\x7d' depth c with
  | some left => ∃ after, outcome = .ok after ∧ Calm after ∧ openBraces after = left
  | none => outcome = .error (here.fault .unexpectedBrace)

section Steps

variable {reader : SheetReader} {c : Char} {rest : Text}

theorem Calm.stay (calm : Calm reader) {level : Level} (kind : level.kind = reader.level.kind)
    (atRules : level.atRules = reader.level.atRules) (parens : level.parens = reader.level.parens) :
    Calm { reader with level } ∧ openBraces { reader with level } = openBraces reader := by
  refine ⟨⟨calm.plain, calm.bottom.update kind atRules, parens.trans calm.parens, calm.around⟩, ?_⟩
  simp only [openBraces, kind]

theorem Calm.noting (calm : Calm reader) (c : Char) :
    Calm (noting reader c) ∧ openBraces (noting reader c) = openBraces reader := by
  obtain ⟨kind, atRules, _⟩ := begin_same reader.level reader.here c
  exact calm.stay kind atRules (begin_parens _ _ _)

theorem counts_other {depth : Nat} {here : Place} {outcome : Except Fault SheetReader} {after : SheetReader}
    (opens : c ≠ '\x7b') (closes : c ≠ '\x7d') (same : outcome = .ok after) (calm : Calm after) (count : openBraces after = depth) :
    Counts depth here c outcome := by
  have step : balanceStep '\x7b' '\x7d' depth c = some depth := by simp [balanceStep, opens, closes]
  unfold Counts
  rw [step]
  exact ⟨after, same, calm, count⟩

theorem inner_braces (level : Level) (here : Place) (count : Nat) :
    bracesIn (level.inner here count).kind = 0 ∧ (level.inner here count).parens = 0 := by
  unfold Level.inner
  split
  next =>
    dsimp only
    split_ifs <;> exact ⟨rfl, rfl⟩
  next => exact ⟨rfl, rfl⟩

theorem enter_counts (calm : Calm reader) (read : reader.level.isPassed = false) :
    Counts (openBraces reader) reader.here '\x7b' (.ok reader.enter) := by
  obtain ⟨braces, parens⟩ := inner_braces reader.level reader.here reader.count
  refine ⟨reader.enter, rfl, ⟨calm.plain, calm.bottom.update rfl rfl, parens, ?_⟩, ?_⟩
  · exact List.forall_mem_cons.mpr ⟨⟨calm.parens, read⟩, calm.around⟩
  · simp only [openBraces, SheetReader.enter, List.length_cons, braces, bracesIn_read read]

theorem leave_counts (calm : Calm reader) (read : reader.level.isPassed = false) :
    Counts (openBraces reader) reader.here '\x7d' reader.leave := by
  have bottom := calm.bottom
  have around := calm.around
  have braces := bracesIn_read read
  unfold Counts SheetReader.leave
  cases outer : reader.outer with
  | nil =>
    have none : openBraces reader = 0 := by simp [openBraces, outer, braces]
    rw [none]
    rfl
  | cons next more =>
    rw [outer] at bottom around
    obtain ⟨⟨parens, reads⟩, others⟩ := List.forall_mem_cons.mp around
    obtain ⟨kind, atRules⟩ := close_same reader.level.flush next reader.here
    have several : openBraces reader = more.length + 1 := by simp [openBraces, outer, braces]
    rw [several]
    refine ⟨_, rfl, ⟨calm.plain, Bottom.update bottom kind atRules, (close_parens _ _ _).trans parens, others⟩, ?_⟩
    simp only [openBraces, kind, bracesIn_read reads, Nat.add_zero]

theorem takeIn_counts (calm : Calm reader) (read : reader.level.isPassed = false) (opener : c ≠ '(') (closer : c ≠ ')') :
    Counts (openBraces reader) reader.here c (reader.takeIn c) := by
  have parens := calm.parens
  unfold SheetReader.takeIn
  simp only [parens, beq_iff_eq, opener, closer, if_false, beq_self_eq_true, Bool.true_and]
  split_ifs with ends begins closes
  · subst ends
    obtain ⟨kind, atRules⟩ := flush_same reader.level
    obtain ⟨still, count⟩ := calm.stay kind atRules (flush_parens reader.level)
    exact counts_other (by decide) (by decide) rfl still count
  · subst begins
    exact enter_counts calm read
  · subst closes
    exact leave_counts calm read
  · obtain ⟨still, count⟩ := @Calm.stay reader calm (reader.level.keep c) rfl rfl rfl
    exact counts_other begins closes rfl still count

theorem leavePassed_counts (calm : Calm reader) {keep : Option AtRule} (kind : reader.level.kind = .passed 0 keep) :
    Counts (openBraces reader) reader.here '\x7d' (.ok (reader.leavePassed keep)) := by
  have bottom := calm.bottom
  have around := calm.around
  cases outer : reader.outer with
  | nil =>
    rw [outer] at bottom
    cases kind.symm.trans bottom.1
  | cons next more =>
    rw [outer] at bottom around
    obtain ⟨⟨parens, reads⟩, others⟩ := List.forall_mem_cons.mp around
    have several : openBraces reader = more.length + 1 := by simp [openBraces, outer, bracesIn, kind]
    have left : Calm { reader with level := next, outer := more } := ⟨calm.plain, bottom, parens, others⟩
    have count : openBraces { reader with level := next, outer := more } = more.length := by
      simp only [openBraces, bracesIn_read reads, Nat.add_zero]
    rw [several, SheetReader.leavePassed, outer]
    -- What is kept of the block does not count for the braces.
    cases keep with
    | none => exact ⟨_, rfl, left, count⟩
    | some rule =>
      dsimp only
      split <;> exact ⟨_, rfl, ⟨left.plain, left.bottom, left.parens, left.around⟩, count⟩

theorem passOver_counts (calm : Calm reader) {depth : Nat} {keep : Option AtRule}
    (kind : reader.level.kind = .passed depth keep) (opener : c ≠ '(') (closer : c ≠ ')') :
    Counts (openBraces reader) reader.here c (.ok (reader.passOver depth keep c)) := by
  have counted : ∀ depth, Calm { reader with level := { reader.level with kind := .passed depth keep } } := fun _ =>
    ⟨calm.plain, calm.bottom.passed kind _, calm.parens, calm.around⟩
  have braces : openBraces reader = reader.outer.length + depth := by simp only [openBraces, kind, bracesIn]
  unfold SheetReader.passOver
  simp only [beq_iff_eq, opener, closer, if_false]
  split_ifs with begins closes
  · subst begins
    rw [braces]
    exact ⟨_, rfl, counted (depth + 1), rfl⟩
  · subst closes
    cases depth with
    | zero => exact leavePassed_counts calm kind
    | succ depth =>
      rw [braces]
      exact ⟨_, rfl, counted depth, rfl⟩
  · exact counts_other begins closes rfl calm rfl

theorem Counts.moved {depth : Nat} {here : Place} {outcome : Except Fault SheetReader} (counts : Counts depth here c outcome)
    (place : Place) : Counts depth here c (outcome.map fun after => { after with here := place }) := by
  unfold Counts at counts ⊢
  split at counts
  next left _ =>
    obtain ⟨after, rfl, calm, count⟩ := counts
    exact ⟨_, rfl, ⟨calm.plain, calm.bottom, calm.parens, calm.around⟩, count⟩
  next => rw [counts, Except.map]

theorem Unmasked.tail (unmasked : Unmasked (c :: rest)) : Unmasked rest :=
  ⟨fun d member => unmasked.bare d (List.mem_cons_of_mem c member),
    fun inside => unmasked.uncommented (List.infix_cons inside),
    fun inside => unmasked.uninterpolated (List.infix_cons inside)⟩

theorem infix_of_next {d : Char} (next : rest.head? = some d) : [c, d] <:+: c :: rest := by
  obtain ⟨more, rfl⟩ := List.head?_eq_some_iff.mp next
  exact ⟨[], more, rfl⟩

/-- Outside of what masks it, a character is passed over or taken in. -/
theorem step_counts (calm : Calm reader) (unmasked : Unmasked (c :: rest)) :
    Counts (openBraces reader) reader.here c (reader.step false c rest.head?) := by
  have bare := unmasked.bare c List.mem_cons_self
  have slash : c = '/' → rest.head? ≠ some '*' := by
    rintro rfl star
    exact unmasked.uncommented (infix_of_next star)
  have hash : c = '#' → rest.head? ≠ some '\x7b' := by
    rintro rfl brace
    exact unmasked.uninterpolated (infix_of_next brace)
  simp only [List.mem_cons, List.not_mem_nil, or_false, not_or] at bare
  obtain ⟨opener, closer, double, single, escape⟩ := bare
  obtain ⟨noted, count⟩ := calm.noting c
  have uncommented : (c == '/' && rest.head? == some '*') = false := by
    by_cases same : c = '/'
    · simp [slash same]
    · simp [same]
  have uninterpolated : (c == '#' && rest.head? == some '\x7b') = false := by
    by_cases same : c = '#'
    · simp [hash same]
    · simp [same]
  have unquoted : isQuote c = false := by simp [isQuote, double, single]
  have read : Counts (openBraces reader) reader.here c (reader.read false c rest.head?) := by
    unfold SheetReader.read
    rw [calm.plain]
    unfold SheetReader.readPlain
    simp only [uncommented, uninterpolated, unquoted, beq_iff_eq, escape, Bool.and_false, Bool.false_and,
      Bool.false_eq_true, if_false]
    rw [← count]
    split
    next depth keep kind => exact passOver_counts noted kind opener closer
    next other => exact takeIn_counts noted (read_of_other other) opener closer
  exact read.moved _

/-- Text in which all braces count, from the left. The first that closes nothing is a fault. -/
theorem run_braces {s : Text} (calm : Calm reader) (unmasked : Unmasked s) :
    (∃ left, balanceFrom '\x7b' '\x7d' (openBraces reader) s = some left ∧
      ∃ after, reader.run false s = .ok after ∧ Calm after ∧ openBraces after = left) ∨
    ∃ front back, s = front ++ '\x7d' :: back ∧ balanceFrom '\x7b' '\x7d' (openBraces reader) front = some 0 ∧
      reader.run false s = .error ((behind reader.here front).fault .unexpectedBrace) := by
  induction s generalizing reader with
  | nil => exact Or.inl ⟨openBraces reader, rfl, reader, rfl, calm, rfl⟩
  | cons c rest ih =>
    have counts := step_counts calm unmasked
    simp only [balance_cons]
    unfold Counts at counts
    cases counted : balanceStep '\x7b' '\x7d' (openBraces reader) c with
    | none =>
      rw [counted] at counts
      obtain ⟨none, rfl⟩ := stray_step counted
      refine Or.inr ⟨[], rest, rfl, congrArg some none, ?_⟩
      simp [SheetReader.run, counts]
    | some middle =>
      rw [counted] at counts
      obtain ⟨moved, stepped, still, rfl⟩ := counts
      rcases ih still unmasked.tail with ⟨left, balance, ended⟩ | ⟨front, back, rfl, balance, run⟩
      · exact Or.inl ⟨left, by rw [Option.bind_some, balance], by rwa [run_step stepped]⟩
      · refine Or.inr ⟨c :: front, back, rfl, ?_, ?_⟩
        · rw [balance_cons, counted, Option.bind_some, balance]
        · obtain ⟨_, _, rfl⟩ := read_of_step stepped
          rw [run_step stepped, run]
          rfl

end Steps

section Sheets

variable {source name : Text}

theorem calm_initial : Calm {} := ⟨rfl, ⟨rfl, rfl⟩, rfl, List.forall_mem_nil _⟩

/-- No brace is open exactly outside of all blocks. -/
theorem finish_calm {reader : SheetReader} (calm : Calm reader) :
    (openBraces reader = 0 ∧ ∃ findings, reader.finish = .ok findings) ∨
      (openBraces reader ≠ 0 ∧ reader.finish = .error (reader.level.start.fault .unclosedBlock)) := by
  have bottom := calm.bottom
  unfold SheetReader.finish
  rw [calm.plain]
  cases outer : reader.outer with
  | nil =>
    rw [outer] at bottom
    left
    exact ⟨by simp [openBraces, outer, bottom.1, bracesIn], _, rfl⟩
  | cons around more =>
    right
    exact ⟨by simp [openBraces, outer], rfl⟩

theorem parse_of_read {dialect : Dialect} {findings : Findings} (read : Findings.read dialect source = .ok findings) :
    ∃ sheet, Stylesheet.parse source name dialect = .ok sheet := by
  unfold Stylesheet.parse
  rw [read]
  exact ⟨_, rfl⟩

theorem parse_of_fault {dialect : Dialect} {fault : Fault} (read : Findings.read dialect source = .error fault) :
    Stylesheet.parse source name dialect = .error fault := by
  unfold Stylesheet.parse
  rw [read]

/-- What becomes of a sheet, by its braces alone. -/
theorem parse_cases (name : Text) (unmasked : Unmasked source) :
    (Balanced source ∧ ∃ sheet, Stylesheet.parse source name .css = .ok sheet) ∨
    (∃ front back, source = front ++ '\x7d' :: back ∧ FirstStray front ∧
      Stylesheet.parse source name .css = .error ⟨.unexpectedBrace, 1 + front.count '\n', columnBehind front⟩) ∨
    ((∀ front, front <+: source → ¬ Overclosed front) ∧ source.count '\x7d' < source.count '\x7b' ∧
      ∃ line column, Stylesheet.parse source name .css = .error ⟨.unclosedBlock, line, column⟩) := by
  have none : openBraces {} = 0 := rfl
  rcases run_braces calm_initial unmasked with ⟨left, balance, after, run, calm, count⟩ | ⟨front, back, rfl, balance, run⟩
  · rw [none] at balance
    obtain ⟨covered, even⟩ := balance_iff.mp balance
    have fronts : ∀ front, front <+: source → ¬ Overclosed front := by
      intro front before
      have enough := covered front before
      unfold Overclosed
      omega
    have read : Findings.read .css source = after.finish := by
      change outcome false {} source = after.finish
      rw [outcome, run]
    rcases finish_calm calm with ⟨closed, findings, finished⟩ | ⟨opened, finished⟩
    · exact Or.inl ⟨⟨fronts, by omega⟩, parse_of_read (read.trans finished)⟩
    · exact Or.inr (Or.inr ⟨fronts, by omega, _, _, parse_of_fault (read.trans finished)⟩)
  · have read : Findings.read .css (front ++ '\x7d' :: back) = .error ((behind {} front).fault .unexpectedBrace) := by
      change outcome false {} _ = _
      rw [outcome, run]
    have place : (behind {} front).fault .unexpectedBrace = ⟨.unexpectedBrace, 1 + front.count '\n', columnBehind front⟩ := by
      rw [Place.fault, behind_line, behind_column]
    refine Or.inr (Or.inl ⟨front, back, rfl, firstStray_of_balance balance, ?_⟩)
    rw [parse_of_fault read, place]

theorem FirstStray.overclosed {front back : Text} (stray : FirstStray front) :
    ∃ part, part <+: front ++ '\x7d' :: back ∧ Overclosed part := by
  refine ⟨front ++ ['\x7d'], ⟨back, ?_⟩, stray.stray⟩
  rw [List.append_assoc, List.singleton_append]

/-- A sheet in which nothing hides a brace can be read exactly if its braces are balanced. Otherwise its fault is the
first brace that closes nothing or, without one, a block that is not closed. -/
theorem braces_decide (name : Text) (unmasked : Unmasked source) :
    ((∃ sheet, Stylesheet.parse source name .css = .ok sheet) ↔ Balanced source) ∧
    ((∃ part, part <+: source ∧ Overclosed part) →
      ∃ front back, source = front ++ '\x7d' :: back ∧ FirstStray front ∧
        Stylesheet.parse source name .css = .error ⟨.unexpectedBrace, 1 + front.count '\n', columnBehind front⟩) ∧
    ((∀ part, part <+: source → ¬ Overclosed part) → source.count '\x7d' < source.count '\x7b' →
      ∃ line column, Stylesheet.parse source name .css = .error ⟨.unclosedBlock, line, column⟩) := by
  rcases parse_cases name unmasked with ⟨balanced, read⟩ | ⟨front, back, rfl, stray, failed⟩ |
    ⟨covered, fewer, line, column, failed⟩
  · refine ⟨iff_of_true read balanced, ?_, ?_⟩
    · rintro ⟨part, before, exceeds⟩
      exact absurd exceeds (balanced.covered part before)
    · intro _ fewer
      exact absurd balanced.even (by omega)
  · obtain ⟨part, before, exceeds⟩ := @FirstStray.overclosed front back stray
    refine ⟨iff_of_false ?_ ?_, fun _ => ⟨front, back, rfl, stray, failed⟩, ?_⟩
    · rintro ⟨sheet, read⟩
      cases failed.symm.trans read
    · exact fun balanced => balanced.covered part before exceeds
    · exact fun covered => absurd exceeds (covered part before)
  · refine ⟨iff_of_false ?_ ?_, ?_, fun _ _ => ⟨line, column, failed⟩⟩
    · rintro ⟨sheet, read⟩
      cases failed.symm.trans read
    · exact fun balanced => absurd balanced.even (by omega)
    · rintro ⟨part, before, exceeds⟩
      exact absurd exceeds (covered part before)

/-- A group in a rule, a block that is passed over, and one more brace than was opened. -/
def strayText : Text := ".menu \x7b\n  @media all \x7b a/b: #c \x7d @page \x7b \x7d\n\x7d\n  \x7d".toList

theorem stray_brace_is_first : Unmasked strayText ∧ (∃ part, part <+: strayText ∧ Overclosed part) ∧
    ∃ front back, strayText = front ++ '\x7d' :: back ∧ FirstStray front ∧
      Stylesheet.parse strayText "menu".toList .css = .error ⟨.unexpectedBrace, 1 + front.count '\n', columnBehind front⟩ := by
  have unmasked : Unmasked strayText := by decide
  have exceeds : ∃ part, part <+: strayText ∧ Overclosed part := ⟨strayText, List.prefix_refl _, by decide⟩
  exact ⟨unmasked, exceeds, (braces_decide "menu".toList unmasked).2.1 exceeds⟩

end Sheets

end CascadeLens.Proofs.BraceBalance
