import CascadeLens.Proofs.PassedSteps
import CascadeLens.Proofs.SheetPlaces
import CascadeLens.Proofs.SheetConcatenation

/-! A block ends at the same brace whether it is read or passed over. Behind that brace both readers stand at the
start of a text, so what follows makes both sheets fail or none. -/

namespace CascadeLens.Proofs.BlockEnds
open Text SheetSteps SheetForest SheetRelocation SheetSimulation SheetSeam SheetPlaces SheetConcatenation PassedBlocks PassedSteps

section Runs

variable {lineComments : Bool} {reader passing after after' : SheetReader} {hidden : Nat} {s front back : Text}

/-- Both readers have left the first block behind the same front of a text, with the rest of it to read. -/
structure Leaves (lineComments : Bool) (reader passing after after' : SheetReader) (front back : Text) : Prop where
  run : reader.run lineComments (front ++ back) = after.run lineComments back
  run' : passing.run lineComments (front ++ back) = after'.run lineComments back
  here : after.here = behind reader.here front
  here' : after'.here = behind passing.here front
  ended : Ended after after' after.here.offset after'.here.offset

theorem finish_open (filled : reader.outer ≠ []) : ∃ fault, reader.finish = .error fault := by
  obtain ⟨around, more, outer⟩ := List.exists_cons_of_ne_nil filled
  unfold SheetReader.finish
  rw [outer]
  cases reader.mode <;> exact ⟨_, rfl⟩

/-- The brace that closes the first block is the same for both, or there is none and both fail. -/
theorem abreast_run (abreast : Abreast reader passing hidden s) (fair : even lineComments reader hidden s = true) :
    (∃ front back after after', s = front ++ back ∧ Leaves lineComments reader passing after after' front back) ∨
      (∃ fault, outcome lineComments reader s = .error fault) ∧ ∃ fault, outcome lineComments passing s = .error fault := by
  induction s generalizing reader passing hidden with
  | nil =>
    obtain ⟨outer, outer'⟩ := abreast.filled
    exact Or.inr ⟨finish_open outer, finish_open outer'⟩
  | cons c rest ih =>
    simp only [even, List.isEmpty_iff, Bool.or_eq_true, abreast.filled.1, false_or, Bool.and_eq_true] at fair
    obtain ⟨alike, later⟩ := fair
    -- One step keeps both in the block, takes both out of it behind this character, or is a fault of both.
    have goes := step_goes lineComments abreast alike
    cases stepped : reader.step lineComments c rest.head? <;> cases stepped' : passing.step lineComments c rest.head? <;>
      rw [stepped, stepped'] at goes
    case error.error => exact Or.inr (by simp [outcome, SheetReader.run, stepped, stepped'])
    case error.ok => exact goes.elim
    case ok.error => exact goes.elim
    case ok.ok middle middle' =>
      rw [stepped] at later
      obtain ⟨here, here', inside | ended⟩ := goes
      · rcases ih inside later with ⟨front, back, after, after', rfl, leaves⟩ | ⟨⟨fault, fails⟩, fault', fails'⟩
        · refine Or.inl ⟨c :: front, back, after, after', rfl, ?_, ?_, ?_, ?_, leaves.ended⟩
          · exact (run_step stepped).trans leaves.run
          · exact (run_step stepped').trans leaves.run'
          · rw [leaves.here, here, behind_cons]
          · rw [leaves.here', here', behind_cons]
        · exact Or.inr ⟨⟨fault, (outcome_run (run_step stepped)).trans fails⟩, fault', (outcome_run (run_step stepped')).trans fails'⟩
      · exact Or.inl ⟨[c], rest, middle, middle', rfl, run_step stepped, run_step stepped', here, here', ended⟩

/-- Between two items of the sheet a text is read as it is alone, but for what has been found before. -/
theorem outcome_between (ready : Ready reader) (outer : reader.outer = []) (bottom : Bottom reader.level reader.outer)
    (line : 1 ≤ reader.here.line) (s : Text) :
    ∃ far, Outcomes (fun found own => found = moveFindings far (past reader) own) (fun _ _ => True)
      (outcome lineComments reader s) (outcome lineComments {} s) := by
  -- Columns move with no front, so the reader is first put at the start of a line.
  let fresh : SheetReader := { reader with here := { reader.here with column := 1 } }
  let far : Distance := ⟨reader.here.offset, reader.here.line - 1, reader.count⟩
  have paired : Paired id reader fresh := paired_elsewhere id bottom ⟨rfl, rfl⟩
  have alike := paired.outcome (fun _ _ => congrArg (· + 1)) lineComments s
  rw [outer] at bottom
  have carried : Carried far (past reader) {} fresh := by
    refine ⟨?_, ready.plain, ?_, (Nat.zero_add _).symm, rfl, rfl⟩
    · simp only [fresh, far, movePlace, Nat.zero_add, Nat.add_sub_cancel' line]
    · simp only [fresh, outer]
      exact ⟨bottom.1, bottom.2, rfl, rfl, ⟨[], List.forall_mem_nil _, ready.resting.item⟩, ready.resting.itemStart, ready.resting.parens⟩
  have moved := carried.outcome lineComments s
  refine ⟨far, ?_⟩
  rw [moved] at alike
  cases read : outcome lineComments reader s <;> cases own : outcome lineComments {} s <;> rw [read, own] at alike
  case error.error => trivial
  case error.ok => exact alike
  case ok.error => exact alike
  case ok.ok =>
    dsimp only [Outcomes, moveOutcome] at alike
    rw [blurFindings_id, blurFindings_id] at alike
    exact alike.symm

end Runs

section Sheets

variable {dialect : Dialect} {name lead front back source : Text} {reader passing after after' : SheetReader}

/-- The text of the first rule of a sheet that can be read. -/
def firstRule (source name : Text) (dialect : Dialect) : Option Text :=
  match Stylesheet.parse source name dialect with
  | .error _ => none
  | .ok sheet => sheet.rules.head?.map (·.text)

/-- The text of the first property of a sheet that can be read. -/
def firstProperty (source name : Text) (dialect : Dialect) : Option Text :=
  match Stylesheet.parse source name dialect with
  | .error _ => none
  | .ok sheet => sheet.properties.head?.map (·.text)

theorem first_of_error {fault : Fault} (read : Findings.read dialect source = .error fault) :
    firstRule source name dialect = none ∧ firstProperty source name dialect = none := by
  simp only [firstRule, firstProperty, Stylesheet.parse, read, and_self]

theorem slice_whole (front back : Text) : slice (front ++ back) 0 front.length = front := by
  rw [slice, List.drop_zero, Nat.sub_zero, List.take_left]

section Leads

variable (begun : ∀ s, SheetReader.run dialect.hasLineComments {} (lead ++ s) = reader.run dialect.hasLineComments s)
  (here : reader.here = behind {} lead)

include begun here

/-- Behind the first block of a text the rest is read as it is alone, but for what has been found in the block. -/
theorem read_behind_block {blocks : List BlockTree}
    (run : reader.run dialect.hasLineComments (front ++ back) = after.run dialect.hasLineComments back)
    (there : after.here = behind reader.here front) (mode : after.mode = .plain) (outer : after.outer = [])
    (level : after.level = { sheetLevel with blocks }) :
    slice (lead ++ (front ++ back)) 0 after.here.offset = lead ++ front ∧ ∃ far,
      Outcomes (fun found own => found = moveFindings far (past after) own) (fun _ _ => True)
        (Findings.read dialect (lead ++ (front ++ back))) (outcome dialect.hasLineComments {} back) := by
  rw [here, ← behind_append] at there
  have offset := behind_offset {} (lead ++ front)
  have line := behind_line {} (lead ++ front)
  rw [← there] at offset line
  have read : Findings.read dialect (lead ++ (front ++ back)) = outcome dialect.hasLineComments after back :=
    outcome_run ((begun _).trans run)
  rw [read, offset, Nat.zero_add, ← List.append_assoc, slice_whole]
  refine ⟨rfl, outcome_between ⟨mode, ?_⟩ outer ?_ (line ▸ Nat.le_add_right 1 _) back⟩
  · rw [level]
    exact ⟨rfl, rfl, rfl, rfl⟩
  · rw [level, outer]
    exact ⟨rfl, rfl⟩

/-- A rule is as long as its block, and can be read if what follows the block can. So is a property. -/
theorem first_rule_read (leaves : Leaves dialect.hasLineComments reader passing after after' front back) :
    firstRule (lead ++ (front ++ back)) name dialect =
      (outcome dialect.hasLineComments {} back).toOption.map fun _ => lead ++ front := by
  obtain ⟨block, children, level, start, stop⟩ := leaves.ended.level
  obtain ⟨text, far, between⟩ := read_behind_block begun here leaves.run leaves.here leaves.ended.mode leaves.ended.outer level
  have blocks : (past after).blocks = [.node block children] := congrArg Level.blocks level
  rw [← start, ← stop] at text
  unfold firstRule Stylesheet.parse
  cases found : Findings.read dialect (lead ++ (front ++ back)) <;> cases own : outcome dialect.hasLineComments {} back <;>
    rw [found, own] at between
  case error.error => rfl
  case error.ok => exact between.elim
  case ok.error => exact between.elim
  case ok.ok =>
    obtain rfl := between
    simp only [moveFindings, blocks, List.reverse_singleton, rulesOf, BlockTree.rules, List.cons_append, List.head?_cons,
      Option.map_some, FoundBlock.style, text, Except.toOption]

theorem first_property_read (leaves : Leaves dialect.hasLineComments passing reader after' after front back) :
    firstProperty (lead ++ (front ++ back)) name dialect =
      (outcome dialect.hasLineComments {} back).toOption.map fun _ => lead ++ front := by
  obtain ⟨block, properties, start, stop⟩ := leaves.ended.found
  obtain ⟨text, far, between⟩ := read_behind_block begun here leaves.run' leaves.here' leaves.ended.mode' leaves.ended.outer'
    leaves.ended.level'
  have properties : (past after).properties = [block] := properties
  rw [← start, ← stop] at text
  unfold firstProperty Stylesheet.parse
  cases found : Findings.read dialect (lead ++ (front ++ back)) <;> cases own : outcome dialect.hasLineComments {} back <;>
    rw [found, own] at between
  case error.error => rfl
  case error.ok => exact between.elim
  case ok.error => exact between.elim
  case ok.ok =>
    obtain rfl := between
    simp only [moveFindings, properties, List.reverse_singleton, List.singleton_append, List.map_cons, List.head?_cons,
      Option.map_some, FoundAtBlock.atBlock, text, Except.toOption]

end Leads

/-- What stands between the braces of a block ends at the same brace whether the block is read as a rule or passed over,
as long as every character of it counts alike for both. -/
theorem blocks_end_alike (dialect : Dialect) (name t u : Text)
    (fair : even dialect.hasLineComments (opened {} ".x".toList) 0 t = true) :
    firstRule (".x\x7b".toList ++ t) name dialect = some (".x\x7b".toList ++ u) ↔
      firstProperty ("@property --p\x7b".toList ++ t) name dialect = some ("@property --p\x7b".toList ++ u) := by
  have ready : Ready {} := ⟨rfl, rfl, rfl, rfl, rfl⟩
  have kept : Kept ".x".toList := ⟨by decide, by decide, by decide, by decide, by decide⟩
  have kept' : Kept "@property --p".toList := ⟨by decide, by decide, by decide, by decide, by decide⟩
  have beside : Beside (opened {} ".x".toList) (opened {} "@property --p".toList) 0 0 0 :=
    ⟨⟨rfl, ⟨".x".toList, 0, by decide⟩, by decide⟩, Or.inl rfl, by decide,
      ⟨⟨"property".toList, "--p".toList⟩, rfl, by decide⟩, by decide, rfl, rfl⟩
  have begun : ∀ s, SheetReader.run dialect.hasLineComments {} (".x\x7b".toList ++ s) = _ := run_opening ready kept
  have begun' : ∀ s, SheetReader.run dialect.hasLineComments {} ("@property --p\x7b".toList ++ s) = _ := run_opening ready kept'
  rcases abreast_run (.same .plain beside) fair with ⟨front, back, after, after', rfl, leaves⟩ | ⟨⟨fault, fails⟩, fault', fails'⟩
  · rw [first_rule_read begun rfl leaves, first_property_read begun' rfl leaves]
    cases outcome dialect.hasLineComments {} back <;> simp [Except.toOption]
  · have read : Findings.read dialect (".x\x7b".toList ++ t) = .error fault := (outcome_run (begun t)).trans fails
    have read' : Findings.read dialect ("@property --p\x7b".toList ++ t) = .error fault' := (outcome_run (begun' t)).trans fails'
    rw [(first_of_error read).1, (first_of_error read').2]
    exact iff_of_false nofun nofun

/-- The contents of a block with a block, a string, a comment and an interpolation in them. -/
def mixedContents : Text := "a: url(#\x7b$b\x7d, \x7b;\x7d); @media all \x7b c\\\x7d: \"\x7d\" \x7d /* \x7d */ \x7d".toList

/-- A closing brace that is escaped or stands in a string, a comment or an interpolation ends neither block, and one in
parentheses that is paired there does not either. -/
theorem mixed_blocks_end_alike : even true (opened {} ".x".toList) 0 (mixedContents ++ "d \x7b\x7d".toList) = true ∧
    firstRule (".x\x7b".toList ++ (mixedContents ++ "d \x7b\x7d".toList)) "mixed".toList .scss =
      some (".x\x7b".toList ++ mixedContents) ∧
    firstProperty ("@property --p\x7b".toList ++ (mixedContents ++ "d \x7b\x7d".toList)) "mixed".toList .scss =
      some ("@property --p\x7b".toList ++ mixedContents) := by
  have fair : even true (opened {} ".x".toList) 0 (mixedContents ++ "d \x7b\x7d".toList) = true := by decide +kernel
  have read : firstRule (".x\x7b".toList ++ (mixedContents ++ "d \x7b\x7d".toList)) "mixed".toList .scss =
      some (".x\x7b".toList ++ mixedContents) := by decide +kernel
  exact ⟨fair, read, (blocks_end_alike .scss "mixed".toList _ mixedContents fair).mp read⟩

/-- A closing brace in parentheses ends a block that is passed over and none that is read. -/
theorem brace_in_parentheses_ends_property :
    ¬ ∀ (dialect : Dialect) (name t u : Text), firstRule (".x\x7b".toList ++ t) name dialect = some (".x\x7b".toList ++ u) ↔
      firstProperty ("@property --p\x7b".toList ++ t) name dialect = some ("@property --p\x7b".toList ++ u) := by
  intro always
  have alike := always .css [] "a:url(\x7d)\x7d".toList "a:url(\x7d)\x7d".toList
  have read : firstRule ".x\x7ba:url(\x7d)\x7d".toList [] .css = some ".x\x7ba:url(\x7d)\x7d".toList := by decide +kernel
  have fails : firstProperty "@property --p\x7ba:url(\x7d)\x7d".toList [] .css = none := by decide +kernel
  cases fails.symm.trans (alike.mp read)

end Sheets

end CascadeLens.Proofs.BlockEnds
