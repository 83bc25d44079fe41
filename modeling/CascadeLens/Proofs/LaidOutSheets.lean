import CascadeLens.Proofs.AiredSheets

/-! Sheets laid out for display. A sheet whose marks stand outside of strings, and whose braces are neither escaped nor
part of an interpolation, is laid out with the same rules in it, but for blanks outside of strings. -/

namespace CascadeLens.Proofs.LaidOutSheets
open Text NestReading DeclarationQuotes SheetForest SheetSimulation SqueezedText SheetAiring SqueezedSheets AiredSheets

def squeezedStyle (block : StyleBlock) : StyleBlock :=
  { block with
    selector := squeeze block.selector
    body := squeeze block.body
    atRules := block.atRules.map squeezedAtRule
    startLine := 0
    endLine := 0
    text := [] }

/-- A rule and the rules around it without their places, their texts and the blanks outside of strings. -/
def squeezedRule (rule : Rule) : Rule := ⟨squeezedStyle rule.toStyleBlock, rule.outer.map squeezedStyle⟩

/-- What a sheet says, if it is accepted: its rules but for places and blanks. -/
def meaning : Except Fault Stylesheet → Option (List Rule)
  | .error _ => none
  | .ok sheet => some (sheet.rules.map squeezedRule)

section Bodies

variable {s : Text}

/-- Which quotes and escapes are open does not hang on the brackets. -/
theorem step_shallow (nest : Nest) (depth : Nat) (c : Char) :
    ∃ depth', Nest.step { nest with depth } c = { nest.step c with depth := depth' } := by
  obtain ⟨depth₀, quote, escaped⟩ := nest
  cases escaped with
  | true => exact ⟨depth, rfl⟩
  | false =>
    cases quote <;> simp only [Nest.step, Bool.false_eq_true, if_false] <;> split_ifs <;> exact ⟨_, rfl⟩

theorem squeezeFrom_shallow (nest : Nest) (depth : Nat) (s : Text) :
    squeezeFrom { nest with depth } s = squeezeFrom nest s := by
  induction s generalizing nest depth with
  | nil => rfl
  | cons c s ih =>
    obtain ⟨depth', same⟩ := step_shallow nest depth c
    rw [squeezeFrom, squeezeFrom, same, ih]

/-- Behind a declaration that is closed the next one is squeezed by itself. -/
theorem squeeze_joined (closed : (Nest.read {} s).quote = none) (t : Text) :
    squeeze (s ++ ("; ".toList ++ t)) = squeeze s ++ ([';'] ++ squeeze t) := by
  generalize whole : Nest.read {} s = nest at closed
  obtain ⟨depth, quote, escaped⟩ := nest
  obtain rfl : quote = none := closed
  have behind : Nest.step ⟨depth, none, escaped⟩ ';' = within depth := by cases escaped <;> rfl
  have blank : Nest.step (within depth) ' ' = within depth := step_ordinary (by decide) depth
  have joint : squeezeFrom ⟨depth, none, escaped⟩ (';' :: ' ' :: t) = ';' :: squeezeFrom (within depth) t := by
    rw [squeezeFrom_solid (by decide), behind, squeezeFrom, blank]
    rfl
  calc
    squeeze (s ++ ("; ".toList ++ t)) = squeeze s ++ squeezeFrom ⟨depth, none, escaped⟩ (';' :: ' ' :: t) := by
      rw [squeeze, squeezeFrom_append, whole]
      rfl
    _ = squeeze s ++ ([';'] ++ squeeze t) := by
      rw [joint]
      exact congrArg (squeeze s ++ ';' :: ·) (squeezeFrom_shallow {} depth t)

/-- So a squeezed body is made of squeezed declarations. -/
theorem squeeze_body {declarations : List RawDeclaration} (closed : ∀ raw ∈ declarations, Sealed False raw.text) :
    squeeze (bodyOf declarations) = [';'].intercalate ((declarations.map squeezedDeclaration).map (·.text)) := by
  induction declarations with
  | nil => rfl
  | cons raw rest ih =>
    obtain ⟨own, others⟩ := List.forall_mem_cons.mp closed
    cases rest with
    | nil => simp [bodyOf, squeezedDeclaration, List.intercalate]
    | cons next more =>
      have shut : (Nest.read {} raw.text).quote = none := own.resolve_left fun mixed => mixed.1
      have onward := ih others
      have whole : bodyOf (raw :: next :: more) = raw.text ++ ("; ".toList ++ bodyOf (next :: more)) := by
        simp [bodyOf, List.intercalate]
      rw [whole, squeeze_joined shut, onward]
      simp [squeezedDeclaration, List.intercalate]

end Bodies

section Rules

variable {source source' name : Text}

/-- Blocks that are squeezed to the same block stand for the same rule, squeezed. -/
theorem style_squeezed {block block' : FoundBlock} (same : squeezedFound block' = squeezedFound block)
    (closed : ∀ raw ∈ block.declarations, Sealed False raw.text)
    (closed' : ∀ raw ∈ block'.declarations, Sealed False raw.text) :
    squeezedStyle (block'.style source' name) = squeezedStyle (block.style source name) := by
  have selector : squeeze block'.selector = squeeze block.selector := congrArg FoundBlock.selector same
  have atRules : block'.atRules.map squeezedAtRule = block.atRules.map squeezedAtRule := congrArg FoundBlock.atRules same
  have order : block'.order = block.order := (FoundBlock.mk.inj same).2.2.2.2.2.2.1
  have declarations : block'.declarations.map squeezedDeclaration = block.declarations.map squeezedDeclaration :=
    congrArg FoundBlock.declarations same
  simp only [squeezedStyle, FoundBlock.style, selector, atRules, order, squeeze_body closed, squeeze_body closed', declarations]

mutual

theorem rules_squeezed {tree tree' : BlockTree} (same : squeezedTree tree' = squeezedTree tree)
    (closed : ∀ block ∈ blocksOf tree, ∀ raw ∈ block.declarations, Sealed False raw.text)
    (closed' : ∀ block ∈ blocksOf tree', ∀ raw ∈ block.declarations, Sealed False raw.text)
    {outer outer' : List StyleBlock} (around : outer'.map squeezedStyle = outer.map squeezedStyle) :
    (tree'.rules source' name outer').map squeezedRule = (tree.rules source name outer).map squeezedRule := by
  cases tree with
  | node block children =>
    cases tree' with
    | node block' children' =>
      rw [squeezedTree, squeezedTree, BlockTree.node.injEq] at same
      rw [blocksOf, List.forall_mem_cons] at closed closed'
      have own : squeezedStyle (block'.style source' name) = squeezedStyle (block.style source name) :=
        style_squeezed same.1 closed.1 closed'.1
      have within : (block'.style source' name :: outer').map squeezedStyle =
          (block.style source name :: outer).map squeezedStyle := by
        rw [List.map_cons, List.map_cons, own, around]
      rw [BlockTree.rules, BlockTree.rules, List.map_cons, List.map_cons, rulesOf_squeezed same.2 closed.2 closed'.2 within,
        squeezedRule, squeezedRule, own, around]

theorem rulesOf_squeezed {trees trees' : List BlockTree} (same : squeezedTrees trees' = squeezedTrees trees)
    (closed : ∀ block ∈ blocksIn trees, ∀ raw ∈ block.declarations, Sealed False raw.text)
    (closed' : ∀ block ∈ blocksIn trees', ∀ raw ∈ block.declarations, Sealed False raw.text)
    {outer outer' : List StyleBlock} (around : outer'.map squeezedStyle = outer.map squeezedStyle) :
    (rulesOf source' name outer' trees').map squeezedRule = (rulesOf source name outer trees).map squeezedRule := by
  cases trees with
  | nil =>
    cases trees' with
    | nil => rfl
    | cons tree' rest' => cases same
  | cons tree rest =>
    cases trees' with
    | nil => cases same
    | cons tree' rest' =>
      rw [squeezedTrees, squeezedTrees, List.cons.injEq] at same
      rw [blocksIn, List.forall_mem_append] at closed closed'
      rw [rulesOf, rulesOf, List.map_append, List.map_append, rules_squeezed same.1 closed.1 closed'.1 around,
        rulesOf_squeezed same.2 closed.2 closed'.2 around]

end

end Rules

section Sheets

variable {lag : Bool} {s t source : Text} {reader after : SheetReader}

theorem poised_run (poised : Poised reader lag s) (ran : reader.run false s = .ok after) : ∃ lag, Poised after lag [] := by
  refine SheetSteps.run_keeps (P := fun reader s => ∃ lag, Poised reader lag s) ?_ ⟨lag, poised⟩ ran
  intro reader after c rest ⟨lag, poised⟩ stepped
  exact ⟨_, (poised.step stepped).1⟩

theorem poised_initial (spared : Spared .plain s) : Poised {} true s :=
  ⟨nofun, spared, holds_initial False s, fun _ => awaits_blank rfl⟩

/-- No declaration of a spared sheet leaves a quote open. -/
theorem declarations_closed {findings : Findings} (spared : Spared .plain s) (found : Findings.read .css s = .ok findings) :
    ∀ block ∈ blocksIn findings.blocks, ∀ raw ∈ block.declarations, Sealed False raw.text := by
  unfold Findings.read at found
  split at found
  next => cases found
  next reader ran =>
    obtain ⟨lag, poised⟩ := poised_run (poised_initial spared) ran
    exact poised.holds.found found

theorem abreast_initial : Abreast Interchangeable {} {} where
  mode := .plain
  level := ⟨.sheet, rfl, rfl, rfl, fun _ => interchangeable_refl [], rfl, rfl⟩
  outer := .nil
  count := rfl

/-- Blanks beside marks leave the meaning of a sheet as it is. -/
theorem meaning_aired (aired : Aired .plain true s t) (spared : Spared .plain s) (name : Text) :
    meaning (Stylesheet.parse t name .css) = meaning (Stylesheet.parse s name .css) := by
  have spared' := aired.spared spared
  have same : Same (Findings.read .css s) (Findings.read .css t) :=
    outcome_aired aired rfl (poised_initial spared) (poised_initial spared') abreast_initial
  unfold Stylesheet.parse
  cases found : Findings.read .css s <;> cases found' : Findings.read .css t <;> rw [found, found'] at same
  case error.error => rfl
  case ok.ok findings findings' =>
    have rules : (rulesOf t name [] findings'.blocks).map squeezedRule = (rulesOf s name [] findings.blocks).map squeezedRule :=
      rulesOf_squeezed same (declarations_closed spared found) (declarations_closed spared' found') rfl
    exact congrArg some rules
  all_goals exact same.elim

/-- A sheet laid out for display is accepted exactly if the sheet itself is, and has the same rules in the same order and
in the same parents, but for blanks outside of strings, if its marks stand outside of strings and none of its braces
is escaped or part of an interpolation. -/
theorem laid_out_means_the_same (source name : Text) (spared : Spared .plain source) :
    meaning (Stylesheet.parse (layOut source) name .css) = meaning (Stylesheet.parse source name .css) := by
  have lines := aired_lines spared true
  have spared₁ := lines.spared spared
  have commas := aired_commas spared₁ true
  have spared₂ := commas.spared spared₁
  have blanks := aired_blank_lines spared₂ true
  have spared₃ := blanks.spared spared₂
  calc
    meaning (Stylesheet.parse (layOut source) name .css) = _ := meaning_aired (aired_trim _) spared₃ name
    _ = _ := meaning_aired blanks spared₂ name
    _ = _ := meaning_aired commas spared₁ name
    _ = meaning (Stylesheet.parse source name .css) := meaning_aired lines spared name

/-- Marks in parentheses and in comments, strings and escapes without marks, and a group of rules. -/
def cardSheet : Text :=
  "@media (width)\x7b.card,.\\31 b\x7bbackground:url(data:a;b,c);content:\"a b\"/*\x7b;*/\x7d\x7d".toList

theorem card_sheet_means_the_same : Spared .plain cardSheet ∧
    meaning (Stylesheet.parse (layOut cardSheet) "card".toList .css) = meaning (Stylesheet.parse cardSheet "card".toList .css) ∧
      (meaning (Stylesheet.parse cardSheet "card".toList .css)).isSome = true := by
  have spared : Spared .plain cardSheet := by decide +kernel
  exact ⟨spared, laid_out_means_the_same cardSheet "card".toList spared, by decide +kernel⟩

/-- A semicolon in a string is taken for the end of a declaration, and the string is broken off. -/
theorem semicolon_breaks_string :
    (meaning (Stylesheet.parse ".a\x7bcontent:\"x;y\"\x7d".toList "menu".toList .css)).isSome = true ∧
      Stylesheet.parse (layOut ".a\x7bcontent:\"x;y\"\x7d".toList) "menu".toList .css = .error ⟨.unclosedString, 2, 11⟩ := by
  decide +kernel

end Sheets

end CascadeLens.Proofs.LaidOutSheets
