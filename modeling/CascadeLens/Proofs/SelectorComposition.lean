import CascadeLens.Proofs.SelectorBranches
import CascadeLens.Proofs.SelectorRereading

/-! Selectors that are put together as texts count for what their parts count for: a list for the greater of
two, a chain for the sum, and an argument for what its function makes of it. -/

namespace CascadeLens.Proofs.SelectorComposition
open Text hiding Unfinished
open Selector SelectorWriting SelectorNames SelectorLexing SelectorReading SelectorLexemes SelectorBranches SelectorSeams
  SelectorRereading

/-- A reader whose outermost list goes on from another one, inside of the functions around that. -/
def onto (base : Unfinished) (around : List (ListFunction × Unfinished)) :
    Unfinished → List (ListFunction × Unfinished) → Reader
  | list, [] => ⟨⟨list.items ++ base.items, list.branches ++ base.branches⟩, around⟩
  | list, (function, host) :: outer =>
    ⟨list, (function, (onto base around host outer).list) :: (onto base around host outer).outer⟩

section Readers

variable {base list : Unfinished} {outer around : List (ListFunction × Unfinished)} {token : Token} {next : Reader}
  {tokens more : List Token} {branch : Branch} {branches others : List Branch}

/-- Branches that have ended stay. -/
theorem step_grows (stepped : Reader.step? ⟨list, outer⟩ token = some next) :
    ended list outer <:+ ended next.list next.outer := by
  by_cases comma : outer.length = 0 ∧ token = .comma
  · obtain ⟨flat, rfl⟩ := comma
    obtain rfl := List.length_eq_zero_iff.mp flat
    obtain ⟨list, done, rfl⟩ := Option.map_eq_some_iff.mp stepped
    obtain ⟨-, rfl⟩ := ended_branch done
    exact List.suffix_cons _ _
  · rw [step_kept stepped comma]

theorem run_grows (run : tokens.foldlM Reader.step? ⟨list, outer⟩ = some next) :
    ended list outer <:+ ended next.list next.outer := by
  induction tokens generalizing list outer with
  | nil =>
    obtain rfl := Option.some.inj run
    exact List.suffix_refl _
  | cons token tokens ih =>
    obtain ⟨middle, stepped, onward⟩ := Option.bind_eq_some_iff.mp run
    exact (step_grows stepped).trans (ih onward)

/-- A step goes the same way from where another list has got to. Only a branch that ends must not have begun
there. -/
theorem step_onto (stepped : Reader.step? ⟨list, outer⟩ token = some next)
    (fits : base.items = [] ∨ ended next.list next.outer = []) :
    (onto base around list outer).step? token = some (onto base around next.list next.outer) := by
  cases token with
  | simple part =>
    obtain rfl := Option.some.inj stepped
    cases outer <;> rfl
  | combinator =>
    obtain rfl := Option.some.inj stepped
    cases outer <;> rfl
  | enter function =>
    obtain rfl := Option.some.inj stepped
    rfl
  | comma =>
    obtain ⟨done, ending, rfl⟩ := Option.map_eq_some_iff.mp stepped
    obtain ⟨filled, rfl⟩ := ended_branch ending
    cases outer with
    | nil =>
      have fresh : base.items = [] := fits.resolve_right (List.cons_ne_nil _ _)
      simp [onto, Reader.step?, Unfinished.endBranch?, filled, fresh]
    | cons opener outer => simp [onto, Reader.step?, Unfinished.endBranch?, filled]
  | close =>
    cases outer with
    | nil => cases stepped
    | cons opener outer =>
      obtain ⟨function, host⟩ := opener
      obtain ⟨inner, finished, rfl⟩ := Option.map_eq_some_iff.mp stepped
      cases outer <;> simp [onto, Reader.step?, finished, Unfinished.push]

theorem run_onto (run : tokens.foldlM Reader.step? ⟨list, outer⟩ = some next)
    (fits : base.items = [] ∨ ended next.list next.outer = []) :
    tokens.foldlM Reader.step? (onto base around list outer) = some (onto base around next.list next.outer) := by
  induction tokens generalizing list outer with
  | nil =>
    obtain rfl := Option.some.inj run
    rfl
  | cons token tokens ih =>
    obtain ⟨middle, stepped, onward⟩ := Option.bind_eq_some_iff.mp run
    have fits' : base.items = [] ∨ ended middle.list middle.outer = [] :=
      fits.imp_right fun none => List.suffix_nil.mp (by rw [← none]; exact run_grows onward)
    rw [List.foldlM_cons, step_onto stepped fits']
    exact ih onward

theorem ofTokens_run (read : ofTokens? tokens = some branches) :
    ∃ list : Unfinished, tokens.foldlM Reader.step? {} = some ⟨list, []⟩ ∧ list.items ≠ [] ∧
      branches = list.branches.reverse ++ [list.items.reverse] := by
  unfold ofTokens? at read
  split at read
  next list run =>
    obtain ⟨done, ending, rfl⟩ := Option.map_eq_some_iff.mp read
    obtain ⟨filled, rfl⟩ := ended_branch ending
    exact ⟨list, run, filled, by simp⟩
  next => cases read

/-- Tokens that are a selector list by themselves fill any list with its branches. -/
theorem fills_of_tokens (read : ofTokens? tokens = some branches) : Fills tokens branches := by
  obtain ⟨list, run, filled, rfl⟩ := ofTokens_run read
  intro before outer
  have onward := @run_onto ⟨[], before⟩ {} [] outer _ _ run (Or.inl rfl)
  refine ⟨_, onward, ?_⟩
  simp [Unfinished.finish?, Unfinished.endBranch?, filled]

/-- Tokens that are one branch by themselves push its items onto any branch. -/
theorem reads_of_tokens (read : ofTokens? tokens = some [branch]) : Reads tokens branch ∧ branch ≠ [] := by
  obtain ⟨list, run, filled, single⟩ := ofTokens_run read
  obtain ⟨none, rfl⟩ : list.branches = [] ∧ list.items.reverse = branch := by
    have alone := List.append_eq_singleton_iff.mp single.symm
    simpa using alone
  refine ⟨fun begun outer => ?_, by simpa using filled⟩
  have onward := @run_onto begun {} [] outer _ _ run (Or.inr none)
  simpa [onto, none] using onward

theorem ofTokens_of_fills (fills : Fills tokens branches) : ofTokens? tokens = some branches := by
  obtain ⟨list, run, finished⟩ := fills [] []
  have run' : tokens.foldlM Reader.step? {} = some ⟨list, []⟩ := run
  rw [ofTokens?, run']
  exact finished

theorem fills_comma (fills : Fills tokens branches) (later : Fills more others) :
    Fills (tokens ++ .comma :: more) (branches ++ others) := by
  intro before outer
  obtain ⟨list, run, finished⟩ := fills before outer
  obtain ⟨done, ending, same⟩ := Option.map_eq_some_iff.mp finished
  obtain ⟨-, rfl⟩ := ended_branch ending
  obtain ⟨list', run', finished'⟩ := later (list.items.reverse :: list.branches) outer
  refine ⟨list', ?_, ?_⟩
  · rw [List.foldlM_append, run]
    simp [Reader.step?, ending, run']
  · rw [finished', same, List.append_assoc]

end Readers

section Greatest

open Std CascadeRanking

theorem peak_unique {top other : Specificity} {all : List Specificity} (first : Peak top all) (second : Peak other all) :
    top = other :=
  specificity_eq_of_order (OrientedCmp.isLE_antisymm (second.above top first.member) (first.above other second.member))

/-- The greatest of two lists is the greater of theirs. -/
theorem greatest_append {first second : List Specificity} (filled : first ≠ []) (filled' : second ≠ []) :
    Specificity.greatest (first ++ second) =
      Specificity.larger (Specificity.greatest first) (Specificity.greatest second) := by
  have top := greatest_peak filled
  have top' := greatest_peak filled'
  refine peak_unique (greatest_peak (List.append_ne_nil_of_left_ne_nil filled second)) ?_
  rcases larger_cases (Specificity.greatest first) (Specificity.greatest second) with ⟨same, lower⟩ | ⟨same, lower⟩
  all_goals rw [same]
  · refine ⟨List.mem_append_left second top.member, List.forall_mem_append.mpr ⟨top.above, fun other member => ?_⟩⟩
    exact TransCmp.isLE_trans (top'.above other member) lower
  · refine ⟨List.mem_append_right first top'.member, List.forall_mem_append.mpr ⟨fun other member => ?_, top'.above⟩⟩
    exact TransCmp.isLE_trans (top.above other member) lower

end Greatest

/-- A text that is read as a selector list, with ASCII blanks only and with an end to every comment. -/
structure Accepted (s : Text) : Prop where
  listed : (parse? s).isSome = true
  blanks : ∀ c ∈ s, isBlank c = true → isAscii c = true
  comments : Enclosed s

/-- No comma stands outside of the functions. -/
def Single (s : Text) : Prop := (parse? s).map List.length = some 1

instance (s : Text) : Decidable (Single s) := inferInstanceAs (Decidable (_ = _))

/-- A text is read as a selector list that counts for so much. -/
def Weighs (s : Text) (count : Specificity) : Prop := (parse? s).isSome = true ∧ specificity s = count

/-- What the texts count for that two others make up. -/
structure Composes (a b : Text) : Prop where
  list : Weighs (a ++ ',' :: b) (Specificity.larger (specificity a) (specificity b))
  child : Single a → Single b → Weighs (a ++ " > ".toList ++ b) (specificity a + specificity b)
  argument : Single a → ∀ name ∈ ["is", "not", "has", "matches"],
    Weighs (a ++ (':' :: name.toList ++ ['(']) ++ b ++ [')']) (specificity a + specificity b)
  nowhere : Single a → Weighs (a ++ ":where(".toList ++ b ++ [')']) (specificity a)
  host : Single a → Weighs (a ++ ":host(".toList ++ b ++ [')']) (specificity a + ⟨0, 0, 1, 0⟩ + specificity b)
  slotted : Single a → Weighs (a ++ "::slotted(".toList ++ b ++ [')']) (specificity a + ⟨0, 0, 0, 1⟩ + specificity b)

/-- The tokens of a text and the branches they fill a list with. -/
structure Reading (s : Text) (tokens : List Token) (branches : List Branch) : Prop where
  solid : blank s = false
  lexical : tokens? s = some tokens
  read : ofTokens? tokens = some branches

section Texts

variable {s a b : Text} {tokens more : List Token} {branches others : List Branch} {branch : Branch}

theorem reading_of_listed (listed : parse? s = some branches) : ∃ tokens, Reading s tokens branches := by
  rw [parse?] at listed
  split at listed
  · cases listed
  next solid =>
    obtain ⟨tokens, lexical, read⟩ := Option.bind_eq_some_iff.mp listed
    exact ⟨tokens, by simpa using solid, lexical, read⟩

theorem Reading.listed (reading : Reading s tokens branches) : parse? s = some branches := by
  rw [parse?, reading.solid, reading.lexical]
  exact reading.read

theorem Reading.weighs (reading : Reading s tokens branches) : Weighs s (Specificity.greatest (weights branches)) := by
  constructor
  · rw [reading.listed]
    rfl
  · rw [specificity, reading.listed]

theorem Reading.weights_filled (reading : Reading s tokens branches) : weights branches ≠ [] := by
  obtain ⟨list, -, -, rfl⟩ := ofTokens_run reading.read
  rw [weights_map]
  simp

theorem Accepted.reading (accepted : Accepted s) : ∃ tokens branches, Reading s tokens branches := by
  obtain ⟨branches, listed⟩ := Option.isSome_iff_exists.mp accepted.listed
  obtain ⟨tokens, reading⟩ := reading_of_listed listed
  exact ⟨tokens, branches, reading⟩

theorem Single.reading (single : Single s) :
    ∃ tokens branch, Reading s tokens [branch] ∧ specificity s = branchWeight branch := by
  obtain ⟨branches, listed, one⟩ := Option.map_eq_some_iff.mp single
  obtain ⟨branch, rfl⟩ := List.length_eq_one_iff.mp one
  obtain ⟨tokens, reading⟩ := reading_of_listed listed
  exact ⟨tokens, branch, reading, reading.weighs.2⟩

theorem blank_append (solid : blank s = false) (rest : Text) : blank (s ++ rest) = false := by
  rw [blank] at solid ⊢
  rw [List.all_append, solid, Bool.false_and]

theorem tokens_of_lexes {follows : Text → Prop} (lexes : Lexes follows s tokens) (ends : follows []) :
    tokens? s = some tokens := by
  have whole := lexes [] ends
  rw [List.append_nil, tokens?.eq_1] at whole
  simpa using whole

theorem firm_nil : Firm [] := nofun

theorem list_weighs (first : Accepted a) (second : Accepted b) :
    Weighs (a ++ ',' :: b) (Specificity.larger (specificity a) (specificity b)) := by
  obtain ⟨tokens, branches, own⟩ := first.reading
  obtain ⟨more, others, later⟩ := second.reading
  have behind := lexes_comma.append (lexes_of_tokens second.comments later.lexical) fun _ _ => trivial
  have lexes := (lexes_of_tokens first.comments own.lexical).append behind fun rest _ => firm_cons (by decide) _
  have reading : Reading (a ++ ([','] ++ b)) (tokens ++ ([.comma] ++ more)) (branches ++ others) := {
    solid := blank_append own.solid _
    lexical := tokens_of_lexes lexes firm_nil
    read := ofTokens_of_fills (fills_comma (fills_of_tokens own.read) (fills_of_tokens later.read)) }
  have weighs := reading.weighs
  rwa [weights_map, List.map_append, ← weights_map, ← weights_map, greatest_append own.weights_filled later.weights_filled,
    ← own.weighs.2, ← later.weighs.2] at weighs

theorem child_weighs (first : Accepted a) (second : Accepted b) (single : Single a) (single' : Single b) :
    Weighs (a ++ " > ".toList ++ b) (specificity a + specificity b) := by
  obtain ⟨tokens, branch, own, weight⟩ := single.reading
  obtain ⟨more, branch', later, weight'⟩ := single'.reading
  obtain ⟨others, alike, spaced⟩ := tokens_spaced first.comments own.lexical (@firm_cons '>' (by decide) (' ' :: b))
  obtain ⟨similar, read, same⟩ := ofTokens_alike alike own.read
  obtain ⟨reads, filled⟩ := reads_of_tokens read
  obtain ⟨reads', -⟩ := reads_of_tokens later.read
  have ascii : ∀ c, b.head? = some c → isBlank c = true → isAscii c = true := fun c found =>
    second.blanks c (List.mem_of_mem_head? found)
  have sign : tokens? ('>' :: ' ' :: b) = some (.combinator :: more) := by
    have lexed := lexes_sign .child (' ' :: b) trivial
    rwa [tokens_blank ascii, later.lexical] at lexed
  have combinator : Reads [.combinator] [.combinator] := fun _ _ => rfl
  have reading : Reading (a ++ ' ' :: '>' :: ' ' :: b) (others ++ .combinator :: more)
      [similar ++ .combinator :: branch'] := {
    solid := blank_append own.solid _
    lexical := by rw [spaced, sign]; rfl
    read := ofTokens_of_fills ((reads.append (combinator.append reads')).fills (by simp)) }
  have weighs := reading.weighs
  have sum : Specificity.greatest (weights [similar ++ .combinator :: branch']) = specificity a + specificity b := by
    rw [weight, weight', ← same]
    change branchWeight (similar ++ .combinator :: branch') = _
    rw [branchWeight_append, branchWeight, Item.weight, specificity_zero_add]
  rw [sum] at weighs
  rw [List.append_assoc]
  exact weighs

/-- A function of a selector list behind a branch. -/
theorem function_weighs (first : Accepted a) (second : Accepted b) (single : Single a) {function : ListFunction}
    {name : Identifier} (named : Names function name) :
    Weighs (a ++ (colonsOf function ++ (name.1 ++ ['('])) ++ b ++ [')'])
      (specificity a + function.weigh (specificity b)) := by
  obtain ⟨tokens, branch, own, weight⟩ := single.reading
  obtain ⟨more, others, later⟩ := second.reading
  have argument := (lexes_of_tokens second.comments later.lexical).append lexes_close fun rest _ =>
    firm_cons (by decide) _
  have call := (lexes_listFunction name named).append argument fun _ _ => trivial
  have lexes := (lexes_of_tokens first.comments own.lexical).append call fun rest _ => by
    cases function <;> exact firm_cons (by decide) _
  obtain ⟨reads, filled⟩ := reads_of_tokens own.read
  have whole := reads.append ((fills_of_tokens later.read).function function)
  have reading : Reading (a ++ (colonsOf function ++ (name.1 ++ ['(']) ++ (b ++ [')'])))
      (tokens ++ ([.enter function] ++ (more ++ [.close]))) [branch ++ [.function function others]] := {
    solid := blank_append own.solid _
    lexical := tokens_of_lexes lexes trivial
    read := ofTokens_of_fills (whole.fills (by simp)) }
  have weighs := reading.weighs
  have sum : Specificity.greatest (weights [branch ++ [.function function others]]) =
      specificity a + function.weigh (specificity b) := by
    rw [weight, later.weighs.2]
    change branchWeight (branch ++ [.function function others]) = _
    rw [branchWeight_append, branchWeight_single, Item.weight]
  rw [sum] at weighs
  simpa only [List.append_assoc] using weighs

/-- Specificities of texts compose as the texts do. -/
theorem specificity_composes (first : Accepted a) (second : Accepted b) : Composes a b where
  list := list_weighs first second
  child := child_weighs first second
  argument single name member := by
    have spelt : isIdentifier name.toList = true ∧ lower name.toList = name.toList := by
      have all : ∀ name ∈ ["is", "not", "has", "matches"], isIdentifier name.toList = true ∧
          lower name.toList = name.toList := by decide
      exact all name member
    exact @function_weighs a b first second single .anyOf ⟨name.toList, spelt.1⟩ ⟨name, member, spelt.2⟩
  nowhere single := by
    have weighs := @function_weighs a b first second single .whereOf ⟨"where".toList, by decide⟩ (by decide)
    rwa [ListFunction.weigh, specificity_add_zero] at weighs
  host single := by
    have weighs := @function_weighs a b first second single .host ⟨"host".toList, by decide⟩ (by decide)
    rwa [ListFunction.weigh, ← specificity_add_assoc] at weighs
  slotted single := by
    have weighs := @function_weighs a b first second single .slotted ⟨"slotted".toList, by decide⟩ (by decide)
    rwa [ListFunction.weigh, ← specificity_add_assoc] at weighs

/-- A comma in a comment, and a number at the end that a blank would go on with. -/
def itemSelector : Text := "li/* , */ .item\\31".toList

/-- Brackets that close nothing in a string and in a comment. -/
def dishSelector : Text := " [title=\"),(\"] ~ p:lang(/* ) */ en)".toList

theorem menu_selectors_compose :
    Accepted itemSelector ∧ Accepted dishSelector ∧ Single itemSelector ∧ Single dishSelector ∧
      specificity itemSelector = ⟨0, 0, 1, 1⟩ ∧ specificity dishSelector = ⟨0, 0, 2, 1⟩ ∧
        Composes itemSelector dishSelector := by
  have first : Accepted itemSelector := ⟨by decide +kernel, by decide +kernel, by decide +kernel⟩
  have second : Accepted dishSelector := ⟨by decide +kernel, by decide +kernel, by decide +kernel⟩
  exact ⟨first, second, by decide +kernel, by decide +kernel, by decide +kernel, by decide +kernel,
    specificity_composes first second⟩

end Texts

end CascadeLens.Proofs.SelectorComposition
