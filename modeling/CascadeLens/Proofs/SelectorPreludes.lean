import CascadeLens.Proofs.SelectorSweeps
import CascadeLens.Proofs.SheetFindings
import CascadeLens.Proofs.SheetItems
import CascadeLens.Proofs.SheetSeam

/-! A selector in front of a block, from the reading of the sheet to what it counts for. The selector of the rule has
spaces for comments and for runs of blanks, and counts for the same unless a name takes in a blank that was not its own. -/

namespace CascadeLens.Proofs.SelectorPreludes
open Text Selector TextShape SheetWriting SheetSteps SheetSeam SheetItems SheetPreludes SheetFindings
open SelectorLexing SelectorEscapes SelectorLexemes SelectorSpelling SelectorBranches SpacedText SpacedTokens SelectorSweeps

/-- Brackets and arguments that an item keeps as they stand. -/
def Contained : Token → Prop
  | .simple (.attribute content) | .simple (.pseudoFunction content) | .simple (.elementFunction content) =>
    contained none 0 content = true
  | _ => True

instance : DecidablePred Contained
  | .simple (.attribute content) | .simple (.pseudoFunction content) | .simple (.elementFunction content) =>
    inferInstanceAs (Decidable (contained none 0 content = true))
  | .simple (.typeName _) | .simple (.className _) | .simple (.idName _) | .simple (.pseudoClass _)
  | .simple (.pseudoElement _) | .simple .universal | .simple .nesting => .isTrue trivial
  | .combinator | .enter _ | .comma | .close => .isTrue trivial

/-- Text that an item keeps as it stands, wherever it is read. -/
def Keeps (lineComments : Bool) (s : Text) : Prop :=
  ∀ reader, Begun reader → ∀ tail, reader.run lineComments (s ++ tail) = (onward reader s).run lineComments tail

section Tokens

variable {lineComments : Bool} {reader : SheetReader} {s rest text name escape gap left item : Text} {token : Token} {row : List Spelt}
  {c : Char}

theorem letter_bare (letter : isLetter c = true) : c ∉ structural := by
  have silent : ∀ d ∈ structural, isLetter d = false := by decide
  exact fun member => nomatch (silent c member).symm.trans letter

theorem hex_bare (hex : isHexDigit c = true) : c ∉ structural :=
  letter_bare (by rw [isLetter, letter_of_hex hex, Bool.true_or])

theorem keeps_bare (bare : ∀ c ∈ s, c ∉ structural) : Keeps lineComments s := fun _ begun tail => run_bare begun bare tail

theorem Keeps.append {t : Text} (first : Keeps lineComments s) (second : Keeps lineComments t) : Keeps lineComments (s ++ t) := by
  intro reader begun tail
  rw [List.append_assoc, first reader begun, second _ (begun.onward s), onward_append]

theorem keeps_escape (own : Escape rest escape) : Keeps lineComments ('\\' :: escape) := by
  have first : ∀ {c : Char} {more : Text}, (∀ d ∈ more, d ∉ structural) → Keeps lineComments ('\\' :: c :: more) := by
    intro c more bare
    have pair : Keeps lineComments ['\\', c] := fun _ begun tail => run_escape begun c tail
    exact pair.append (keeps_bare bare)
  have digits : ∀ {digits : Text}, Code digits → ∃ c more, digits = c :: more ∧ ∀ d ∈ more, d ∉ structural := by
    intro digits code
    obtain ⟨c, more, rfl⟩ := List.exists_cons_of_ne_nil code.filled
    exact ⟨c, more, rfl, fun d member => hex_bare (code.hex d (List.mem_cons_of_mem c member))⟩
  cases own with
  | char => exact first (by simp)
  | code code =>
    obtain ⟨c, more, rfl, bare⟩ := digits code
    exact first bare
  | spaced code white =>
    obtain ⟨c, more, rfl, bare⟩ := digits code
    exact first (List.forall_mem_append.mpr ⟨bare, List.forall_mem_singleton.mpr (blank_bare white)⟩)

theorem keeps_name (own : Name rest name) : Keeps lineComments name := by
  induction own with
  | ended => exact keeps_bare (by simp)
  | letter letter more ih => exact (keeps_bare (List.forall_mem_singleton.mpr (letter_bare letter))).append ih
  | escaped own more ih => exact (keeps_escape own).append ih

theorem keeps_content (kept : contained none 0 s = true) : Keeps lineComments s := by
  intro reader begun tail
  have settled : resumed reader .plain s reader.level.parens = onward reader s := by
    rw [resumed, ← begun.plain]
    rfl
  rw [run_contained (begun.plain ▸ .bare) begun.read begun.begun kept rfl, settled]

theorem keeps_airy (room : Airy s) : Keeps lineComments s := keeps_bare fun c member => blank_bare (room c member).1

theorem keeps_named (named : Named name) : Keeps lineComments name :=
  keeps_bare fun c member => letter_bare (by rw [isLetter, named.letters c member, Bool.true_or])

theorem keeps_colons {colons : Text} (two : Colons colons) : Keeps lineComments colons := by
  rcases two with rfl | rfl <;> exact keeps_bare (by decide)

/-- A hash in front of a name begins no interpolation. -/
theorem keeps_hash (own : Name rest name) (filled : name ≠ []) : Keeps lineComments ('#' :: name) := by
  intro reader begun tail
  have calm : (name ++ tail).head? ≠ some '\x7b' := by
    cases own with
    | ended => exact absurd rfl filled
    | letter letter =>
      intro brace
      obtain rfl := Option.some.inj brace
      exact absurd letter (by decide)
    | escaped => exact fun brace => absurd (Option.some.inj brace) (by decide)
  rw [List.cons_append, run_hash begun calm, keeps_name own _ (begun.onward _), onward_append]
  rfl

/-- A token is kept as it is written, and opens or closes the parentheses that its kind says. -/
theorem run_lexeme (begun : Begun reader) (own : Lexeme rest text token) (kept : Contained token) (tail : Text) :
    reader.run lineComments (text ++ tail) =
      (past reader text text (SelectorCuts.behind token reader.level.parens)).run lineComments tail := by
  have mark : ∀ {c : Char}, c ∉ structural → Keeps lineComments [c] :=
    fun bare => keeps_bare (List.forall_mem_singleton.mpr bare)
  cases own with
  | sign listed =>
    rcases List.mem_cons.mp listed with comma | listed
    · obtain ⟨rfl, rfl⟩ := Prod.mk.inj comma
      exact mark (by decide) reader begun tail
    rcases List.mem_cons.mp listed with close | listed
    · obtain ⟨rfl, rfl⟩ := Prod.mk.inj close
      exact run_closer begun tail
    have bare : ∀ sign ∈ signs.drop 2, sign.1 ∉ structural := by decide
    have level : ∀ sign ∈ signs.drop 2, SelectorCuts.behind sign.2 reader.level.parens = reader.level.parens := by
      simp [signs, SelectorCuts.behind]
    rw [level _ listed]
    exact mark (bare _ listed) reader begun tail
  | column => exact @keeps_bare lineComments ['|', '|'] (by decide) reader begun tail
  | typeName word => exact keeps_name word.own reader begun tail
  | className room word => exact ((mark (by decide)).append ((keeps_airy room).append (keeps_name word.own))) reader begun tail
  | idName filled own => exact keeps_hash own filled reader begun tail
  | bracket filled inert =>
    have whole := (mark (c := '[') (by decide)).append ((keeps_content kept).append (mark (c := ']') (by decide)))
    exact whole reader begun tail
  | pseudo two room word closed =>
    have whole : Keeps lineComments _ := (keeps_colons two).append ((keeps_airy room).append (keeps_name word.own))
    split <;> exact whole reader begun tail
  | @function colons name arguments two named free balanced bare =>
    have inside : contained none 0 (name ++ '(' :: (arguments ++ [')'])) = true := by
      split at kept <;> exact kept
    have whole : Keeps lineComments _ := (keeps_colons two).append (keeps_content inside)
    split <;> exact whole reader begun tail
  | @list colons name function two named listed =>
    have front : Keeps lineComments _ := (keeps_colons two).append (keeps_named named)
    have split : colons ++ (name ++ ['(']) ++ tail = (colons ++ name) ++ '(' :: tail := by simp
    rw [split, front reader begun, run_opener (begun.onward _), past_onward, List.append_assoc]
    rfl

/-- Blanks are kept, and a comment leaves a space, whether an item has begun or not. -/
theorem run_swept (plain : reader.mode = .plain) (read : reader.level.isPassed = false) (swept : Swept gap left) (tail : Text) :
    reader.run lineComments (gap ++ tail) = (past reader gap left reader.level.parens).run lineComments tail := by
  induction swept generalizing reader with
  | nil => rfl
  | @blank c gap left white later ih =>
    have onward := @ih (waited reader [c] [c]) plain read
    rw [List.cons_append, run_blank plain read white.1, onward]
    exact congrArg (SheetReader.run lineComments · tail) (past_past reader [c] [c] gap left _ _)
  | @comment body gap left closed later ih =>
    obtain ⟨inner, rfl, unended⟩ := comment_closed closed
    have comment := @run_comment lineComments reader plain inner unended (gap ++ tail)
    have onward := @ih (waited reader ('/' :: '*' :: (inner ++ ['*', '/'])) [' ']) plain read
    have joined := past_past reader ('/' :: '*' :: (inner ++ ['*', '/'])) [' '] gap left reader.level.parens reader.level.parens
    simp only [List.cons_append, List.append_assoc, List.nil_append] at comment joined ⊢
    rw [comment, onward, ← joined]
    rfl

/-- How many parentheses are open behind tokens. -/
def depthBehind (depth : Nat) (tokens : List Token) : Nat :=
  tokens.foldl (fun depth token => SelectorCuts.behind token depth) depth

theorem run_sweep (begun : Begun reader) (sweep : Sweep s row item)
    (kept : ∀ token ∈ row.map Prod.fst, Contained token) (tail : Text) :
    reader.run lineComments (s ++ tail) =
      (past reader s item (depthBehind reader.level.parens (row.map Prod.fst))).run lineComments tail := by
  induction sweep generalizing reader with
  | done room => exact run_swept begun.plain begun.read room tail
  | @more gap left text rest item token row room own later ih =>
    obtain ⟨first, others⟩ := List.forall_mem_cons.mp kept
    have spaced := @run_swept lineComments reader gap left begun.plain begun.read room (text ++ (rest ++ tail))
    rw [List.append_assoc, List.append_assoc, spaced, run_lexeme (begun.past _ _ _) own first, past_past,
      ih (begun.past _ _ _) others, past_past, List.append_assoc, List.append_assoc]
    rfl

end Tokens

section Sheets

variable {lineComments : Bool} {reader : SheetReader} {s item : Text} {row : List Spelt} {c : Char}

/-- The reader where the first character of an item has been taken note of. -/
def started (reader : SheetReader) : SheetReader :=
  { reader with level := { reader.level with itemStart := some reader.here } }

theorem run_started (plain : reader.mode = .plain) (none : reader.level.itemStart = none) (solid : isBlank c = false)
    (slash : c ≠ '/') (rest : Text) :
    reader.run lineComments (c :: rest) = (started reader).run lineComments (c :: rest) := by
  have same : reader.step lineComments c rest.head? = (started reader).step lineComments c rest.head? := by
    simp [SheetReader.step, SheetReader.read, plain, SheetReader.readPlain, slash, Level.begin, none, solid, started]
  simp only [SheetReader.run, same]

/-- In front of its block a selector is one item, with no parentheses left open. -/
theorem run_selector (sweep : Sweep s row item) (filled : row ≠ []) (ascii : ∀ c ∈ s, isBlank c = true → isAscii c = true)
    (kept : ∀ token ∈ row.map Prod.fst, Contained token) (closed : depthBehind 0 (row.map Prod.fst) = 0) (tail : Text) :
    ∃ start, SheetReader.run lineComments {} (s ++ tail) =
      SheetReader.run lineComments
        { here := SheetSteps.behind {} s
          level := { kind := .sheet, atRules := [], start := {}, item := item.reverse, itemStart := some start } } tail := by
  cases sweep with
  | done => exact absurd rfl filled
  | @more gap left text rest item token row room own later =>
    obtain ⟨c, more, rfl, solid, slash, -⟩ := own.read fun c member => ascii c (by simp [member])
    have alone : Sweep ([] ++ (c :: more ++ rest)) ((token, [] ++ c :: more) :: row) ([] ++ (c :: more ++ item)) :=
      .more .nil own later
    have begun : Begun (started (past {} gap left 0)) := ⟨rfl, rfl, nofun⟩
    have waiting := @run_swept lineComments {} gap left rfl rfl room (c :: more ++ rest ++ tail)
    have noted := @run_started lineComments (past {} gap left 0) c rfl rfl solid slash (more ++ rest ++ tail)
    have onward := @run_sweep lineComments _ _ _ _ begun alone kept tail
    refine ⟨SheetSteps.behind {} gap, ?_⟩
    have settled : past (started (past {} gap left 0)) ([] ++ (c :: more ++ rest)) ([] ++ (c :: more ++ item)) 0 =
        { here := SheetSteps.behind {} (gap ++ (c :: more ++ rest))
          level := { kind := .sheet, atRules := [], start := {}, item := (left ++ (c :: more ++ item)).reverse,
                     itemStart := some (SheetSteps.behind {} gap) } } := by
      simp [past, started, keeping, behind_append]
    rw [List.append_assoc, waiting]
    refine noted.trans (onward.trans ?_)
    rw [← settled]
    exact congrArg (fun depth => SheetReader.run lineComments (past _ _ _ depth) tail) closed

/-- The first character of what is left of a selector. -/
theorem trimmed_first (sweep : Sweep s row item) (filled : row ≠ []) (ascii : ∀ c ∈ s, isBlank c = true → isAscii c = true) :
    ∃ c more, trim item = c :: more ∧ isBlank c = false ∧ c ≠ '@' := by
  cases sweep with
  | done => exact absurd rfl filled
  | @more gap left text rest item token row room own later =>
    obtain ⟨c, more, rfl, solid, slash, read⟩ := own.read fun c member => ascii c (by simp [member])
    have first : ∀ d, (c :: more ++ item).head? = some d → isBlank d = false := fun d found => Option.some.inj found ▸ solid
    refine ⟨c, trimRight (more ++ item), ?_, solid, ?_⟩
    · rw [trim, trimLeft_behind_blanks room.blanks, trimLeft_eq_self first]
      exact trimRight_solid solid [] (more ++ item)
    · rintro rfl
      have other := SelectorRereading.token_other (c := '@') (by decide) (more ++ rest)
      have silent : identifierLength ('@' :: (more ++ rest)) = 0 := rfl
      rw [other, silent] at read
      cases read

/-- The rule of a sheet that holds nothing else. -/
def soleRule? (sheet : Stylesheet) : Option Rule :=
  match sheet.rules, sheet.keyframes, sheet.properties, sheet.declarations with
  | [rule], [], [], [] => some rule
  | _, _, _, _ => none

/-- A selector in front of an empty block. -/
def blockOf (s : Text) : Text := s ++ "\x7b\x7d".toList

theorem read_selector (sweep : Sweep s row item) (filled : row ≠ []) (ascii : ∀ c ∈ s, isBlank c = true → isAscii c = true)
    (kept : ∀ token ∈ row.map Prod.fst, Contained token) (closed : depthBehind 0 (row.map Prod.fst) = 0)
    (dialect : Dialect) :
    ∃ block, Findings.read dialect (blockOf s) = .ok ⟨[.node block []], [], [], []⟩ ∧
      block.selector = collapse (trim item) := by
  obtain ⟨start, run⟩ := @run_selector dialect.hasLineComments _ _ _ sweep filled ascii kept closed "\x7b\x7d".toList
  obtain ⟨c, more, first, -, sign⟩ := trimmed_first sweep filled ascii
  let reader : SheetReader :=
    { here := SheetSteps.behind {} s
      level := { kind := .sheet, atRules := [], start := {}, item := item.reverse, itemStart := some start } }
  have begun : Begun reader := ⟨rfl, rfl, nofun⟩
  have inner : reader.level.inner reader.here reader.count =
      { kind := .style (collapse (trim item)) 0, atRules := [], start } := by
    rw [inner_selector (by simp [reader, first, sign]), show reader.level.item.reverse = item from List.reverse_reverse item,
      spaced_trim]
    rfl
  -- The block is empty, so that its rule has all that is found.
  let around : Level := { kind := .sheet, atRules := [], start := {} }
  let inside : SheetReader :=
    { here := reader.here.after '\x7b', level := { kind := .style (collapse (trim item)) 0, atRules := [], start }
      outer := [around], count := 1 }
  have entered : { reader.enter with here := reader.here.after '\x7b' } = inside := by
    simp only [SheetReader.enter, inner]
    rfl
  have opening := @run_taken dialect.hasLineComments reader reader.enter '\x7b' ['\x7d'] _ begun.plain begun.read (by decide)
    (by simp) (begun.noting '\x7b') rfl
  have closing := @run_closing dialect.hasLineComments inside around [] ⟨rfl, rfl, rfl, rfl, rfl⟩ rfl []
  rw [entered] at opening
  exact ⟨_, @read_of_run dialect _ _ (run.trans (opening.trans closing)) ⟨rfl, rfl, rfl, rfl, rfl⟩ rfl, rfl⟩

theorem parse_selector (sweep : Sweep s row item) (filled : row ≠ []) (ascii : ∀ c ∈ s, isBlank c = true → isAscii c = true)
    (kept : ∀ token ∈ row.map Prod.fst, Contained token) (closed : depthBehind 0 (row.map Prod.fst) = 0) (name : Text)
    (dialect : Dialect) :
    ∃ sheet rule, Stylesheet.parse (blockOf s) name dialect = .ok sheet ∧ soleRule? sheet = some rule ∧
      rule.selector = collapse (trim item) := by
  obtain ⟨block, read, named⟩ := read_selector sweep filled ascii kept closed dialect
  refine ⟨⟨name, dialect, [⟨block.style (blockOf s) name, []⟩], [], [], []⟩, _, ?_, rfl, named⟩
  rw [Stylesheet.parse, read]
  rfl

/-- What makes a sheet reader and a reader of selectors take a selector for the same. Their views part where blanks are
not ASCII ones, where comments stand inside of tokens, where brackets and arguments hide structure, and where a name takes
in a blank: one that stood before the name of a type, or the last of all. -/
structure Legible (s : Text) (row : List Spelt) : Prop where
  ascii : ∀ c ∈ s, isBlank c = true → isAscii c = true
  uncommented : ∀ spelt ∈ row, Uncommented (written spelt) spelt.1
  contained : ∀ token ∈ row.map Prod.fst, Contained token
  apart : row.IsChain Apart
  lasting : ∀ spelt ∈ row.getLast?, ∀ name ∈ nameOf? spelt.1, Lasting name

instance (s : Text) (row : List Spelt) : Decidable (Legible s row) :=
  decidable_of_iff ((∀ c ∈ s, isBlank c = true → isAscii c = true) ∧
      (∀ spelt ∈ row, Uncommented (written spelt) spelt.1) ∧
      (∀ token ∈ row.map Prod.fst, Contained token) ∧ row.IsChain Apart ∧
        ∀ spelt ∈ row.getLast?, ∀ name ∈ nameOf? spelt.1, Lasting name)
    ⟨fun ⟨ascii, uncommented, contained, apart, lasting⟩ => ⟨ascii, uncommented, contained, apart, lasting⟩,
      fun ⟨ascii, uncommented, contained, apart, lasting⟩ => ⟨ascii, uncommented, contained, apart, lasting⟩⟩

theorem read_of_spelt {parsed : List Branch} (spelt : spelt? s = some row) (accepted : parse? s = some parsed) :
    ofTokens? (row.map Prod.fst) = some parsed := by
  have whole : tokens? s = some (row.map Prod.fst) := by
    rw [tokens_spelt [] s, show speltFrom? [] s = some row from spelt]
    rfl
  rw [parse?, whole] at accepted
  split at accepted
  next => cases accepted
  next => exact accepted

/-- Functions whose arguments are lists are closed in every selector that is read. -/
theorem depth_of_read {tokens : List Token} {parsed : List Branch} (read : ofTokens? tokens = some parsed) :
    depthBehind 0 tokens = 0 := by
  unfold ofTokens? at read
  split at read
  next list run => exact run_depth run
  next => cases read

/-- In front of an empty block a selector is that of the only rule, and the rule's selector counts for the same. -/
theorem block_keeps_specificity (spelt : spelt? s = some row) (accepted : (parse? s).isSome = true) (legible : Legible s row)
    (name : Text) (dialect : Dialect) :
    ∃ sheet rule, Stylesheet.parse (blockOf s) name dialect = .ok sheet ∧ soleRule? sheet = some rule ∧
      (parse? rule.selector).isSome = true ∧ specificity rule.selector = specificity s := by
  obtain ⟨parsed, accepted⟩ := Option.isSome_iff_exists.mp accepted
  have read := read_of_spelt spelt accepted
  have filled : row ≠ [] := by
    rintro rfl
    cases read
  obtain ⟨item, sweep⟩ := sweep_of_spelt .nil legible.ascii spelt legible.uncommented
  rw [List.nil_append] at sweep
  obtain ⟨others, similar, tokens⟩ := sweep.tokens legible.ascii legible.apart legible.lasting
  obtain ⟨sheet, rule, parse, sole, selector⟩ :=
    parse_selector sweep filled legible.ascii legible.contained (depth_of_read read) name dialect
  obtain ⟨c, more, first, white, -⟩ := trimmed_first sweep filled legible.ascii
  have same := ofTokens_similar similar
  rw [read] at same
  obtain ⟨parsed', read', counts⟩ := Option.map_eq_some_iff.mp same.symm
  have again : parse? rule.selector = some parsed' := by
    have filled' : blank rule.selector = false := by
      rw [selector, first, collapse_cons white]
      simp [blank, white]
    rw [parse?, filled', selector, collapse_trim, tokens_collapseFrom, tokens]
    exact read'
  refine ⟨sheet, rule, parse, sole, by rw [again]; rfl, ?_⟩
  rw [specificity, specificity, again, accepted]
  simp only [weights_map, counts]

/-- Comments and runs of blanks between tokens and in strings, escapes with and without a blank, and arguments. -/
def spacedSelector : Text :=
  "  nav /* all */  > .\\31  .a\\:b [title=\"a  /* b;  */  c\"]\n:not(.x ,  #y z):nth-child( 2n  +  1 )::before/**/".toList

theorem spaced_block : ∃ row sheet rule, spelt? spacedSelector = some row ∧ (parse? spacedSelector).isSome = true ∧
    Legible spacedSelector row ∧ Stylesheet.parse (blockOf spacedSelector) "a.css".toList .css = .ok sheet ∧
    soleRule? sheet = some rule ∧ (parse? rule.selector).isSome = true ∧
    specificity rule.selector = specificity spacedSelector := by
  obtain ⟨row, spelt⟩ := Option.isSome_iff_exists.mp (by decide +kernel : (spelt? spacedSelector).isSome = true)
  have every : ∀ row ∈ spelt? spacedSelector, Legible spacedSelector row := by decide +kernel
  have accepted : (parse? spacedSelector).isSome = true := by decide +kernel
  obtain ⟨sheet, rule, facts⟩ := block_keeps_specificity spelt accepted (every row spelt) "a.css".toList .css
  exact ⟨row, sheet, rule, spelt, accepted, every row spelt, facts⟩

/-- Of two blanks behind an escape one belongs to it, and the sheet reader leaves one, so that the name goes on. -/
theorem descendant_is_lost : ¬ ∀ (s : Text) (sheet : Stylesheet) (rule : Rule), (parse? s).isSome = true →
    Stylesheet.parse (blockOf s) "a.css".toList .css = .ok sheet → soleRule? sheet = some rule →
    specificity rule.selector = specificity s := by
  intro every
  have accepted : (parse? ".\\31  b".toList).isSome = true := by decide +kernel
  have read : ((Stylesheet.parse (blockOf ".\\31  b".toList) "a.css".toList .css).toOption.bind soleRule?).map (·.selector) =
      some ".\\31 b".toList := by decide +kernel
  obtain ⟨rule, found, selector⟩ := Option.map_eq_some_iff.mp read
  obtain ⟨sheet, parsed, sole⟩ := Option.bind_eq_some_iff.mp found
  cases parse : Stylesheet.parse (blockOf ".\\31  b".toList) "a.css".toList .css with
  | error fault =>
    rw [parse] at parsed
    cases parsed
  | ok other =>
    rw [parse] at parsed
    obtain rfl := Option.some.inj parsed
    have same := every _ _ _ accepted parse sole
    rw [selector] at same
    exact absurd same (by decide +kernel)

end Sheets

end CascadeLens.Proofs.SelectorPreludes
