import CascadeLens.Proofs.SheetPlaces

/-! A block comment counts as a space. It leaves the same blank in an item and takes no look at what stands around
it, so with one or the other the same is found, on the same lines, up to the text of the comment itself. -/

namespace CascadeLens.Proofs.CommentSpaces
open Text SheetSteps SheetRelocation SheetSimulation SheetSeam SheetPlaces

/-- Reads a front with what follows it in sight. -/
def runBefore (lineComments : Bool) (reader : SheetReader) (rest : Text) : Text → Except Fault SheetReader
  | [] => .ok reader
  | c :: front =>
    match reader.step lineComments c (front ++ rest).head? with
    | .error fault => .error fault
    | .ok after => runBefore lineComments after rest front

def isCommentMark : ReadMode → Bool
  | .commentMark _ => true
  | _ => false

/-- Whether a slash and a star behind a front begin a block comment. They do outside of strings, escapes,
interpolations and other comments. -/
def beginsComment (lineComments : Bool) (front : Text) : Bool :=
  match runBefore lineComments {} ['*'] (front ++ ['/']) with
  | .error _ => false
  | .ok after => isCommentMark after.mode

section Fronts

variable {lineComments : Bool} {reader after : SheetReader} {front back rest rest' : Text} {c : Char} {next : Option Char}

theorem run_before (before : runBefore lineComments reader rest front = .ok after) :
    reader.run lineComments (front ++ rest) = after.run lineComments rest := by
  induction front generalizing reader with
  | nil =>
    obtain rfl := Except.ok.inj before
    rfl
  | cons c front ih =>
    rw [runBefore] at before
    split at before
    next => cases before
    next middle stepped => rw [List.cons_append, run_step stepped, ih before]

theorem runBefore_append (before : runBefore lineComments reader rest (front ++ back) = .ok after) :
    ∃ middle, runBefore lineComments reader (back ++ rest) front = .ok middle ∧
      runBefore lineComments middle rest back = .ok after := by
  induction front generalizing reader with
  | nil => exact ⟨reader, rfl, before⟩
  | cons c front ih =>
    rw [List.cons_append, runBefore] at before
    split at before
    next => cases before
    next middle stepped =>
      obtain ⟨last, early, late⟩ := ih before
      rw [List.append_assoc] at stepped
      exact ⟨last, by simp only [runBefore, stepped, early], late⟩

/-- No more of what follows is seen than its first character. -/
theorem runBefore_head (same : rest.head? = rest'.head?) (reader : SheetReader) (front : Text) :
    runBefore lineComments reader rest front = runBefore lineComments reader rest' front := by
  induction front generalizing reader with
  | nil => rfl
  | cons c front ih =>
    have ahead : (front ++ rest).head? = (front ++ rest').head? := by rw [List.head?_append, List.head?_append, same]
    simp only [runBefore, ahead, ih]

/-- Only a reader outside of everything takes a slash for the beginning of a comment. -/
theorem plain_of_mark (stepped : reader.step lineComments '/' next = .ok after) (mark : isCommentMark after.mode = true) :
    reader.mode = .plain := by
  obtain ⟨moved, read, rfl⟩ := read_of_step stepped
  cases mode : reader.mode <;> simp only [SheetReader.read, mode] at read
  case plain => rfl
  case comment =>
    cases read
    split at mark <;> simp_all [isCommentMark]
  case interpolation =>
    split_ifs at read <;> cases read <;> cases mark
  case string =>
    split_ifs at read <;> cases read <;> cases mark
  case lineComment =>
    obtain rfl := Except.ok.inj read
    rw [mode] at mark
    cases mark
  all_goals
    cases read
    cases mark

private theorem readPlain_space (read : reader.readPlain lineComments c (some '/') = .ok after) (plain : after.mode = .plain) :
    reader.readPlain lineComments c (some ' ') = .ok after := by
  rw [← read]
  by_cases line : c = '/' ∧ lineComments = true ∧ reader.level.parens = 0
  · obtain ⟨rfl, known, outside⟩ := line
    have begun : reader.readPlain lineComments '/' (some '/') = .ok { reader with mode := .lineComment } := by
      simp [SheetReader.readPlain, known, outside]
    obtain rfl := Except.ok.inj (begun.symm.trans read)
    cases plain
  · have stays : (c == '/' && lineComments && reader.level.parens == 0) = false := by
      simpa [and_assoc] using line
    simp [SheetReader.readPlain, stays]

/-- In front of a space a reader does what it does in front of a slash, unless the slash means something to it. -/
theorem step_space (stepped : reader.step lineComments c (some '/') = .ok after) (plain : after.mode = .plain) :
    reader.step lineComments c (some ' ') = .ok after := by
  obtain ⟨moved, read, rfl⟩ := read_of_step stepped
  suffices same : reader.read lineComments c (some ' ') = .ok moved by rw [SheetReader.step, same]; rfl
  cases mode : reader.mode <;> simp only [SheetReader.read, mode] at read ⊢
  case plain => exact readPlain_space read plain
  case comment =>
    cases read
    split at plain
    · cases plain
    · cases mode.symm.trans plain
  case lineComment =>
    split at read
    next feed =>
      rw [if_pos feed]
      exact readPlain_space read plain
    next =>
      cases read
      cases mode.symm.trans plain
  all_goals exact read

theorem grounded_before (grounded : Grounded reader reader.here.offset)
    (before : runBefore lineComments reader rest front = .ok after) : Grounded after after.here.offset := by
  induction front generalizing reader with
  | nil =>
    obtain rfl := Except.ok.inj before
    exact grounded
  | cons c front ih =>
    rw [runBefore] at before
    split at before
    next => cases before
    next middle stepped => exact ih (grounded.step stepped) before

theorem before_space (before : runBefore lineComments reader ('/' :: rest) front = .ok after) (plain : after.mode = .plain)
    (rest' : Text) : runBefore lineComments reader (' ' :: rest') front = .ok after := by
  induction front generalizing reader with
  | nil => exact before
  | cons c front ih =>
    rw [runBefore] at before
    split at before
    next => cases before
    next middle stepped =>
      have onward : reader.step lineComments c (front ++ ' ' :: rest').head? = .ok middle := by
        cases front with
        | nil =>
          obtain rfl := Except.ok.inj before
          exact step_space stepped plain
        | cons d front => exact stepped
      simp only [runBefore, onward, ih before]

end Fronts

section Gaps

variable {lineComments : Bool} {reader : SheetReader}

/-- A space is kept unless the level is passed over. -/
def spacedOut (reader : SheetReader) : SheetReader :=
  { reader with
    here := reader.here.after ' '
    level := if reader.level.isPassed then reader.level else reader.level.keep ' ' }

theorem run_space (plain : reader.mode = .plain) (rest : Text) :
    reader.run lineComments (' ' :: rest) = (spacedOut reader).run lineComments rest := by
  have noted : noting reader ' ' = reader := by simp [noting, Level.begin, show isBlank ' ' = true by decide]
  cases passed : reader.level.isPassed with
  | false =>
    have taken : reader.takeIn ' ' = .ok { reader with level := reader.level.keep ' ' } := by simp [SheetReader.takeIn]
    rw [run_taken plain passed (by decide) (by simp) noted taken]
    simp [spacedOut, passed]
  | true =>
    have stepped : reader.step lineComments ' ' rest.head? = .ok (spacedOut reader) := by
      unfold Level.isPassed at passed
      split at passed
      next depth keep kind =>
        rw [step_passed plain kind (by decide), noted]
        simp [SheetReader.passOver, spacedOut, Level.isPassed, kind]
      next => cases passed
    exact run_step stepped

/-- Behind a comment on one line a reader differs from one behind a space in its place, and in what it keeps of a
level that is passed over. -/
theorem paired_gap (bottom : Bottom reader.level reader.outer) {comment : Text} (single : '\n' ∉ comment) :
    Paired (fun _ => 0) (waited reader comment [' ']) (spacedOut reader) := by
  have line : (reader.here.after ' ').line = (behind reader.here comment).line := by
    rw [behind_line, List.count_eq_zero.mpr single]
    rfl
  have alike := alike_refl (fun _ => 0) reader.level
  have moved := @paired_elsewhere (fun _ => 0) (waited reader comment [' ']) (bottom.update rfl rfl) _ ⟨line, rfl⟩
  refine { moved with level := ?_ }
  unfold spacedOut
  dsimp only
  split
  next passed => exact { alike with item := fun read => nomatch passed.symm.trans read }
  next => exact alike.keep ' '

end Gaps

section Sheets

def withoutText (block : StyleBlock) : StyleBlock := { block with text := [] }

def ruleWithoutText (rule : Rule) : Rule := ⟨withoutText rule.toStyleBlock, rule.outer.map withoutText⟩

def blockWithoutText (block : AtBlock) : AtBlock := { block with text := [] }

/-- What a parse says but for the texts of rules and blocks and the columns of faults. -/
def outline : Except Fault Stylesheet → Except (FaultKind × Nat) Stylesheet
  | .error fault => .error (fault.kind, fault.line)
  | .ok sheet => .ok { sheet with
      rules := sheet.rules.map ruleWithoutText
      keyframes := sheet.keyframes.map blockWithoutText
      properties := sheet.properties.map blockWithoutText }

variable (source name : Text)

theorem slice_nil (start stop : Nat) : slice [] start stop = [] := by simp [slice]

mutual

/-- Without their texts the rules of a text are those of the blocks found in it, whatever their offsets. -/
theorem rules_without_text (outer : List StyleBlock) (tree : BlockTree) :
    (tree.rules source name outer).map ruleWithoutText = tree.rules [] name (outer.map withoutText) := by
  cases tree with
  | node block children =>
    have own : withoutText (block.style source name) = block.style [] name := by
      simp only [withoutText, FoundBlock.style, slice_nil]
    have inner := rulesOf_without_text (block.style source name :: outer) children
    rw [List.map_cons, own] at inner
    rw [BlockTree.rules, BlockTree.rules, List.map_cons, inner, ruleWithoutText, own]

theorem rulesOf_without_text (outer : List StyleBlock) (trees : List BlockTree) :
    (rulesOf source name outer trees).map ruleWithoutText = rulesOf [] name (outer.map withoutText) trees := by
  cases trees with
  | nil => rfl
  | cons tree rest => rw [rulesOf, rulesOf, List.map_append, rules_without_text, rulesOf_without_text]

end

mutual

theorem rules_blurred (sight : Nat → Nat) (outer : List StyleBlock) (tree : BlockTree) :
    (blurTree sight tree).rules [] name outer = tree.rules [] name outer := by
  cases tree with
  | node block children =>
    have own : (blurFound sight block).style [] name = block.style [] name := by
      simp only [blurFound, FoundBlock.style, slice_nil]
    rw [blurTree, BlockTree.rules, BlockTree.rules, own, rulesOf_blurred sight _ children]

theorem rulesOf_blurred (sight : Nat → Nat) (outer : List StyleBlock) (trees : List BlockTree) :
    rulesOf [] name outer (blurTrees sight trees) = rulesOf [] name outer trees := by
  cases trees with
  | nil => rfl
  | cons tree rest => rw [blurTrees, rulesOf, rulesOf, rules_blurred, rulesOf_blurred]

end

theorem blocks_without_text (sight : Nat → Nat) (blocks : List FoundAtBlock) :
    (blocks.map (·.atBlock source name)).map blockWithoutText = (blocks.map (blurAtBlock sight)).map (·.atBlock [] name) := by
  rw [List.map_map, List.map_map]
  refine List.map_congr_left fun block _ => ?_
  simp only [Function.comp_apply, blockWithoutText, FoundAtBlock.atBlock, blurAtBlock, slice_nil]

/-- What is found alike makes the same sheets but for the texts. -/
theorem outline_alike {sight : Nat → Nat} {dialect : Dialect} {source source' : Text} (name : Text)
    (alike : Outcomes (fun findings others => blurFindings sight others = blurFindings sight findings) AlikeFaults
      (Findings.read dialect source) (Findings.read dialect source')) :
    outline (Stylesheet.parse source name dialect) = outline (Stylesheet.parse source' name dialect) := by
  unfold Stylesheet.parse
  cases read : Findings.read dialect source <;> cases read' : Findings.read dialect source' <;> rw [read, read'] at alike
  case error.error =>
    dsimp only [outline]
    rw [alike.1, alike.2]
  case error.ok => exact alike.elim
  case ok.error => exact alike.elim
  case ok.ok findings others =>
    have blocks : blurTrees sight others.blocks = blurTrees sight findings.blocks := congrArg Findings.blocks alike
    have keyframes : others.keyframes.map (blurAtBlock sight) = findings.keyframes.map (blurAtBlock sight) :=
      congrArg Findings.keyframes alike
    have properties : others.properties.map (blurAtBlock sight) = findings.properties.map (blurAtBlock sight) :=
      congrArg Findings.properties alike
    have declarations : (blurFindings sight others).declarations = (blurFindings sight findings).declarations :=
      congrArg Findings.declarations alike
    dsimp only [blurFindings] at declarations
    dsimp only [outline]
    rw [rulesOf_without_text, rulesOf_without_text, ← rulesOf_blurred name sight, ← blocks, rulesOf_blurred,
      blocks_without_text source name sight, blocks_without_text source name sight, blocks_without_text source' name sight,
      blocks_without_text source' name sight, keyframes, properties, declarations]

/-- A block comment counts as a space: with one in place of the other a text fails in the same way on the same line, or
it has the same rules, declarations and blocks but for their texts. -/
theorem comment_counts_as_space (dialect : Dialect) (name front comment rest : Text)
    (begins : beginsComment dialect.hasLineComments front = true) (unended : ¬ ['*', '/'] <:+: comment)
    (single : '\n' ∉ comment) :
    outline (Stylesheet.parse (front ++ '/' :: '*' :: (comment ++ '*' :: '/' :: rest)) name dialect) =
      outline (Stylesheet.parse (front ++ ' ' :: rest) name dialect) := by
  unfold beginsComment at begins
  split at begins
  next => cases begins
  next marked read =>
    obtain ⟨middle, early, late⟩ := runBefore_append read
    -- Both texts are read up to the same reader, which goes on behind the comment or behind the space.
    have plain : middle.mode = .plain := by
      rw [runBefore] at late
      split at late
      next => cases late
      next after stepped => exact plain_of_mark stepped (Except.ok.inj late ▸ begins)
    have before : runBefore dialect.hasLineComments {} ('/' :: '*' :: (comment ++ '*' :: '/' :: rest)) front = .ok middle := by
      refine (runBefore_head ?_ {} front).trans early
      rfl
    have commented := (run_before before).trans (run_comment plain unended rest)
    have spaced := (run_before (before_space before plain rest)).trans (run_space plain rest)
    have single' : '\n' ∉ '/' :: '*' :: (comment ++ ['*', '/']) := by simp [single]
    have bottom := (grounded_before grounded_initial before).bottom
    have alike := (paired_gap bottom single').outcome (fun _ _ _ => rfl) dialect.hasLineComments rest
    rw [← outcome_run commented, ← outcome_run spaced] at alike
    exact outline_alike name alike

/-- A comment begins in a selector, in parentheses and in a block that is passed over. The marks in it count for nothing. -/
theorem comments_count_as_spaces :
    (∀ front ∈ [".menu", "a:not(", "@font-face \x7b src: url("].map String.toList, beginsComment false front = true) ∧
      outline (Stylesheet.parse ".menu/*\x7b;*/ \x7b top: 0 \x7d".toList "menu".toList .css) =
        outline (Stylesheet.parse ".menu  \x7b top: 0 \x7d".toList "menu".toList .css) := by
  refine ⟨by decide +kernel, ?_⟩
  exact comment_counts_as_space .css "menu".toList ".menu".toList "\x7b;".toList " \x7b top: 0 \x7d".toList (by decide +kernel)
    (by decide) (by decide)

end Sheets

end CascadeLens.Proofs.CommentSpaces
