import CascadeLens.Proofs.NestReading
import CascadeLens.Proofs.SelectorSpelling

/-! Cutting a selector at its commas follows its tokens. Every token but a comma is read without a cut and
leaves as many brackets open as its kind says, so the cuts are the commas between branches. -/

namespace CascadeLens.Proofs.SelectorCuts
open Text Selector TextShape NestReading SelectorEscapes SelectorLexing SelectorLexemes SelectorSpelling

/-- Outside quotes there is no bracket and no backslash. -/
def Framed (nest : Nest) (c : Char) : Prop := nest.quote = none → c ≠ '\\' ∧ isOpener c = false ∧ isCloser c = false

instance (nest : Nest) (c : Char) : Decidable (Framed nest c) := inferInstanceAs (Decidable (_ → _))

/-- Text with paired quotes in which brackets and backslashes stand inside of quotes only. -/
structure Tidy (s : Text) : Prop where
  framed : Along Framed {} s
  paired : Nest.read {} s = {}

instance (s : Text) : Decidable (Tidy s) :=
  decidable_of_iff (Along Framed {} s ∧ Nest.read {} s = {})
    ⟨fun both => ⟨both.1, both.2⟩, fun tidy => ⟨tidy.framed, tidy.paired⟩⟩

def isParenthesis (c : Char) : Bool := c == '(' || c == ')'

/-- A token whose free content is tidy. The arguments of a function are the runs between its parentheses,
in which no backslash stands at all. -/
def TidyToken : Token → Prop
  | .simple (.attribute content) => Tidy content
  | .simple (.pseudoFunction content) | .simple (.elementFunction content) =>
    ∀ run ∈ content.splitOnP isParenthesis, Tidy run ∧ '\\' ∉ run
  | _ => True

instance : DecidablePred TidyToken
  | .simple (.attribute content) => inferInstanceAs (Decidable (Tidy content))
  | .simple (.pseudoFunction content) | .simple (.elementFunction content) =>
    inferInstanceAs (Decidable (∀ run ∈ content.splitOnP isParenthesis, Tidy run ∧ '\\' ∉ run))
  | .simple (.typeName _) | .simple (.className _) | .simple (.idName _) | .simple (.pseudoClass _)
  | .simple (.pseudoElement _) | .simple .universal | .simple .nesting => .isTrue trivial
  | .combinator | .enter _ | .comma | .close => .isTrue trivial

/-- Text that leaves the brackets around it open, and has no comma outside of its own. -/
def Neutral (s : Text) : Prop := ∀ depth, (within depth).read s = within depth ∧ Along (Uncut (· == ',')) (within depth) s

section Neutral

variable {s t rest text : Text} {c : Char}

theorem Neutral.append (first : Neutral s) (second : Neutral t) : Neutral (s ++ t) := by
  intro depth
  obtain ⟨read, uncut⟩ := first depth
  rw [read_append, along_append, read]
  exact ⟨(second depth).1, uncut, (second depth).2⟩

theorem neutral_ordinary (plain : ∀ c ∈ s, ordinary c = true ∧ c ≠ ',') : Neutral s := fun depth =>
  ⟨read_ordinary (fun c member => (plain c member).1) depth,
    uncut_unmarked (fun c member => by simpa using (plain c member).2) (within depth)⟩

/-- Whatever follows a backslash is passed over. -/
theorem neutral_escaped (c : Char) (neutral : Neutral s) : Neutral ('\\' :: c :: s) := by
  intro depth
  obtain ⟨read, uncut⟩ := neutral depth
  have passed : ((within depth).step '\\').step c = within depth := rfl
  refine ⟨?_, uncut_within depth (by decide), ?_, ?_⟩
  · change (((within depth).step '\\').step c).read s = within depth
    rw [passed, read]
  · simp [Uncut, Nest.cutsAt, Nest.outside, Nest.step, within]
  · rw [passed]
    exact uncut

theorem plain_letter (letter : isLetter c = true) : ordinary c = true ∧ c ≠ ',' := by
  have silent : ∀ d ∈ ['\\', '"', '\'', '(', '[', ')', ']', ','], isLetter d = false := by decide
  have other : ∀ d ∈ ['\\', '"', '\'', '(', '[', ')', ']', ','], c ≠ d := by
    rintro d member rfl
    exact absurd ((silent c member).symm.trans letter) (by decide)
  simp only [List.mem_cons, List.not_mem_nil, or_false, forall_eq_or_imp, forall_eq] at other
  simp [ordinary, isQuote, isOpener, isCloser, other]

theorem plain_blank (white : isBlank c = true) : ordinary c = true ∧ c ≠ ',' := by
  refine ⟨ordinary_of_isBlank white, ?_⟩
  rintro rfl
  exact absurd white (by decide)

theorem plain_hex (hex : isHexDigit c = true) : ordinary c = true ∧ c ≠ ',' :=
  plain_letter (by rw [isLetter, letter_of_hex hex, Bool.true_or])

theorem neutral_airy (room : Airy s) : Neutral s := neutral_ordinary fun c member => plain_blank (room c member).1

theorem neutral_escape (own : Escape rest s) : Neutral ('\\' :: s) := by
  have digits : ∀ {digits : Text}, Code digits →
      ∃ c more, digits = c :: more ∧ ∀ d ∈ more, ordinary d = true ∧ d ≠ ',' := by
    intro digits code
    obtain ⟨c, more, rfl⟩ := List.exists_cons_of_ne_nil code.filled
    exact ⟨c, more, rfl, fun d member => plain_hex (code.hex d (List.mem_cons_of_mem c member))⟩
  cases own with
  | char => exact neutral_escaped _ (neutral_ordinary (by simp))
  | code code =>
    obtain ⟨c, more, rfl, plain⟩ := digits code
    exact neutral_escaped c (neutral_ordinary plain)
  | spaced code white =>
    obtain ⟨c, more, rfl, plain⟩ := digits code
    refine neutral_escaped c (neutral_ordinary (List.forall_mem_append.mpr ⟨plain, ?_⟩))
    simpa using plain_blank white

theorem neutral_name (own : Name rest s) : Neutral s := by
  induction own with
  | ended => exact neutral_ordinary (by simp)
  | @letter c name letter more ih =>
    have first : Neutral [c] := neutral_ordinary (by simpa using plain_letter letter)
    exact first.append ih
  | escaped own more ih => exact (neutral_escape own).append ih

end Neutral

section Contents

variable {s t rest content arguments : Text} {nest : Nest} {c : Char} {depth : Nat}

theorem Tidy.sheltered (tidy : Tidy s) : Along Sheltered {} s := by
  refine tidy.framed.imp fun nest c framed closes bare => ?_
  exact absurd (closes.symm.trans (framed bare.1).2.2) (by decide)

theorem deeper_start (depth : Nat) : deeper depth {} = within depth := by simp [deeper, within]

theorem Tidy.read (tidy : Tidy s) (depth : Nat) : (within depth).read s = within depth := by
  have inside := read_deeper tidy.sheltered depth
  rwa [tidy.paired, deeper_start] at inside

/-- Inside of brackets no comma cuts. -/
theorem uncut_inside (nest : Nest) (c : Char) (inside : nest.depth ≠ 0) : Uncut (· == ',') nest c := by
  simp [Uncut, Nest.cutsAt, Nest.outside, inside]

theorem Tidy.uncut (tidy : Tidy s) (depth : Nat) : Along (Uncut (· == ',')) (within (depth + 1)) s := by
  have inside := tidy.sheltered.deeper (q := Uncut (· == ',')) tidy.framed (depth + 1) fun nest c _ =>
    uncut_inside _ c (Nat.succ_ne_zero _)
  rwa [deeper_start] at inside

/-- Brackets around text that is read without a cut inside of them. -/
theorem neutral_enclosed {opener closer : Char} (marks : (opener, closer) ∈ [('(', ')'), ('[', ']')])
    (inside : ∀ depth, (within (depth + 1)).read s = within (depth + 1) ∧ Along (Uncut (· == ',')) (within (depth + 1)) s) :
    Neutral (opener :: (s ++ [closer])) := by
  intro depth
  obtain ⟨read, uncut⟩ := inside depth
  obtain ⟨opened, closed, bare⟩ : (within depth).step opener = within (depth + 1) ∧
      (within (depth + 1)).step closer = within depth ∧ opener ≠ ',' ∧ closer ≠ ',' := by
    simp only [List.mem_cons, Prod.mk.injEq, List.not_mem_nil, or_false] at marks
    rcases marks with ⟨rfl, rfl⟩ | ⟨rfl, rfl⟩ <;> exact ⟨rfl, rfl, by decide, by decide⟩
  constructor
  · rw [Nest.read, List.foldl_cons, opened, List.foldl_append]
    change Nest.step ((within (depth + 1)).read s) closer = within depth
    rw [read, closed]
  · refine ⟨uncut_within depth (by simpa using bare.1), ?_⟩
    rw [opened, along_append, read]
    exact ⟨uncut, uncut_within _ (by simpa using bare.2), trivial⟩

theorem neutral_bracket (tidy : Tidy content) : Neutral ('[' :: (content ++ [']'])) :=
  neutral_enclosed (by decide) fun depth => ⟨tidy.read (depth + 1), tidy.uncut depth⟩

/-- In the arguments of a function parentheses stand outside quotes, and square brackets inside. -/
def Clean (nest : Nest) (c : Char) : Prop :=
  c ≠ '\\' ∧ (isParenthesis c = true → nest.quote = none) ∧ (nest.quote = none → c ≠ '[' ∧ c ≠ ']')

theorem clean_run (tidy : Tidy s) (escape : '\\' ∉ s) (flat : ∀ c ∈ s, isParenthesis c = false) (depth : Nat) :
    Along Clean (within depth) s := by
  have framed := tidy.sheltered.deeper (q := Framed) tidy.framed depth fun _ _ framed => framed
  rw [deeper_start] at framed
  have bare : ∀ c ∈ s, c ≠ '\\' ∧ isParenthesis c = false :=
    fun c member => ⟨fun same => escape (same ▸ member), flat c member⟩
  refine (framed.and (along_all bare _)).imp ?_
  rintro nest c ⟨framed, plain, other⟩
  refine ⟨plain, fun paren => absurd (paren.symm.trans other) (by decide), fun outside => ⟨?_, ?_⟩⟩
  · rintro rfl
    exact absurd (framed outside).2.1 (by decide)
  · rintro rfl
    exact absurd (framed outside).2.2 (by decide)

/-- Runs without quotes open at their ends leave every parenthesis outside quotes. -/
theorem clean_of_runs (runs : ∀ run ∈ content.splitOnP isParenthesis, Tidy run ∧ '\\' ∉ run) (depth : Nat) :
    Along Clean (within depth) content := by
  -- The runs are taken off the front, each up to its parenthesis.
  induction size : content.length using Nat.strongRecOn generalizing content depth with
  | _ n ih =>
    have flat : ∀ c ∈ content.takeWhile (!isParenthesis ·), isParenthesis c = false := fun c member => by
      simpa using List.all_eq_true.mp List.all_takeWhile c member
    have whole := List.takeWhile_append_dropWhile (p := (!isParenthesis ·)) (l := content)
    cases behind : content.dropWhile (!isParenthesis ·) with
    | nil =>
      rw [behind, List.append_nil] at whole
      rw [whole] at flat
      rw [List.splitOnP_eq_singleton flat] at runs
      obtain ⟨tidy, escape⟩ := runs content List.mem_cons_self
      exact clean_run tidy escape flat depth
    | cons c rest =>
      have paren : isParenthesis c = true := by
        have stopped := List.head?_dropWhile_not (!isParenthesis ·) content
        rw [behind] at stopped
        simpa using stopped
      rw [behind] at whole
      rw [← whole, List.splitOnP_append_cons_of_forall_mem flat c paren rest] at runs
      obtain ⟨⟨tidy, escape⟩, others⟩ := List.forall_mem_cons.mp runs
      have shorter : rest.length < n := by
        rw [← size, ← whole, List.length_append, List.length_cons]
        omega
      obtain ⟨deep, stepped⟩ : ∃ deep, (within depth).step c = within deep := by
        rcases (by simpa [isParenthesis] using paren : c = '(' ∨ c = ')') with rfl | rfl <;> exact ⟨_, rfl⟩
      rw [← whole, along_append, tidy.read]
      refine ⟨clean_run tidy escape flat depth, ⟨?_, fun _ => rfl, fun _ => ?_⟩, ?_⟩
      · rintro rfl
        exact absurd paren (by decide)
      · constructor
        · rintro rfl
          exact absurd paren (by decide)
        · rintro rfl
          exact absurd paren (by decide)
      · rw [stepped]
        exact ih rest.length shorter others deep rfl

/-- The arguments of a function are read with the brackets that they leave open. -/
theorem read_arguments {balance left : Nat} (clean : Along Clean nest s)
    (balanced : balanceFrom '(' ')' balance s = some left)
    (open_ : nest.depth = depth + 1 + balance) (calm : nest.escaped = false) :
    (nest.read s).depth = depth + 1 + left ∧ (nest.read s).escaped = false ∧ Along (Uncut (· == ',')) nest s := by
  induction s generalizing nest balance with
  | nil =>
    obtain rfl := Option.some.inj balanced
    exact ⟨open_, calm, trivial⟩
  | cons c s ih =>
    obtain ⟨middle, first, later⟩ := Option.bind_eq_some_iff.mp balanced
    obtain ⟨⟨escape, paren, square⟩, others⟩ := clean
    have stepped : (nest.step c).depth = depth + 1 + middle ∧ (nest.step c).escaped = false := by
      obtain ⟨inner, quote, escaped⟩ := nest
      obtain rfl : escaped = false := calm
      obtain rfl : inner = depth + 1 + balance := open_
      by_cases opener : c = '('
      · subst opener
        obtain rfl : quote = none := paren rfl
        obtain rfl : balance + 1 = middle := by simpa [balanceStep] using first
        exact ⟨rfl, rfl⟩
      by_cases closer : c = ')'
      · subst closer
        obtain rfl : quote = none := paren rfl
        cases balance with
        | zero => cases first
        | succ balance =>
          obtain rfl := Option.some.inj first
          exact ⟨rfl, rfl⟩
      obtain rfl : balance = middle := by simpa [balanceStep, opener, closer] using first
      cases quote with
      | none =>
        obtain ⟨left, right⟩ := square rfl
        by_cases quote : isQuote c = true <;> simp [Nest.step, escape, quote, isOpener, isCloser, opener, closer,
          left, right]
      | some quote =>
        by_cases same : c = quote
        · subst same
          simp [Nest.step, escape]
        · simp [Nest.step, escape, same]
    obtain ⟨deep, calm', uncut⟩ := ih others later stepped.1 stepped.2
    exact ⟨deep, calm', uncut_inside nest c (by omega), uncut⟩

theorem neutral_function (balanced : Paired '(' ')' arguments)
    (clean : ∀ depth, Along Clean (within depth) ('(' :: (arguments ++ [')']))) :
    Neutral ('(' :: (arguments ++ [')'])) := by
  refine neutral_enclosed (by decide) fun depth => ?_
  have opened : (within depth).step '(' = within (depth + 1) := rfl
  have along := (clean depth).2
  rw [opened] at along
  obtain ⟨inside, ⟨-, paren, -⟩, -⟩ := along_append.mp along
  obtain ⟨deep, calm, uncut⟩ := @read_arguments arguments (within (depth + 1)) depth 0 0 inside balanced rfl rfl
  refine ⟨?_, uncut⟩
  rw [eq_within ⟨paren rfl, calm⟩, deep, Nat.add_zero]

end Contents

section Tokens

variable {s rest text name : Text} {token : Token} {depth : Nat} {row begun : List Spelt}

/-- How many brackets are open behind a token. -/
def behind (token : Token) (depth : Nat) : Nat :=
  match token with
  | .enter _ => depth + 1
  | .close => depth - 1
  | _ => depth

/-- The branches of a row of tokens: what stands between the commas outside of functions. -/
def branchesFrom (depth : Nat) (begun : List Spelt) : List Spelt → List (List Spelt)
  | [] => [begun.reverse]
  | spelt :: row =>
    if depth = 0 ∧ spelt.1 = .comma then begun.reverse :: branchesFrom 0 [] row
    else branchesFrom (behind spelt.1 depth) (spelt :: begun) row

theorem neutral_named (named : Named name) : Neutral name :=
  neutral_ordinary fun c member => plain_letter (by rw [isLetter, named.letters c member, Bool.true_or])

theorem neutral_colons {colons : Text} (two : Colons colons) : Neutral colons := by
  rcases two with rfl | rfl <;> exact neutral_ordinary (by decide)

/-- A token is read up to the brackets it leaves open, without a cut unless it is a comma itself. -/
theorem lexeme_nest (own : Lexeme rest text token) (tidy : TidyToken token) (depth : Nat) :
    (within depth).read text = within (behind token depth) ∧
      (¬ (depth = 0 ∧ token = .comma) → Along (Uncut (· == ',')) (within depth) text) := by
  have neutral : ∀ {text : Text}, Neutral text → behind token depth = depth →
      (within depth).read text = within (behind token depth) ∧
        (¬ (depth = 0 ∧ token = .comma) → Along (Uncut (· == ',')) (within depth) text) := by
    intro text neutral same
    rw [same]
    exact ⟨(neutral depth).1, fun _ => (neutral depth).2⟩
  cases own with
  | sign listed =>
    rcases List.mem_cons.mp listed with comma | listed
    · obtain ⟨rfl, rfl⟩ := Prod.mk.inj comma
      exact ⟨rfl, fun inside => ⟨uncut_inside _ _ fun none => inside ⟨none, rfl⟩, trivial⟩⟩
    rcases List.mem_cons.mp listed with close | listed
    · obtain ⟨rfl, rfl⟩ := Prod.mk.inj close
      exact ⟨rfl, fun _ => ⟨uncut_within depth (by decide), trivial⟩⟩
    have plain : ∀ sign ∈ signs.drop 2, ordinary sign.1 = true ∧ sign.1 ≠ ',' := by decide
    have level : ∀ sign ∈ signs.drop 2, behind sign.2 depth = depth := by simp [signs, behind]
    exact neutral (neutral_ordinary (by simpa using plain _ listed)) (level _ listed)
  | column => exact neutral (neutral_ordinary (by decide)) rfl
  | typeName word => exact neutral (neutral_name word.own) rfl
  | className room word =>
    have dot : Neutral ['.'] := neutral_ordinary (by decide)
    exact neutral (dot.append ((neutral_airy room).append (neutral_name word.own))) rfl
  | idName filled own =>
    have hash : Neutral ['#'] := neutral_ordinary (by decide)
    exact neutral (hash.append (neutral_name own)) rfl
  | bracket filled inert => exact neutral (neutral_bracket tidy) rfl
  | pseudo two room word closed =>
    exact neutral ((neutral_colons two).append ((neutral_airy room).append (neutral_name word.own))) rfl
  | @function colons name arguments two named free balanced bare =>
    have runs : ∀ run ∈ (name ++ '(' :: (arguments ++ [')'])).splitOnP isParenthesis, Tidy run ∧ '\\' ∉ run := by
      rcases two with rfl | rfl <;> exact tidy
    have clean : ∀ depth, Along Clean (within depth) ('(' :: (arguments ++ [')'])) := by
      intro depth
      have along := (along_append.mp (clean_of_runs runs depth)).2
      rwa [(neutral_named named depth).1] at along
    exact neutral ((neutral_colons two).append ((neutral_named named).append (neutral_function balanced clean))) rfl
  | @list colons name function two named listed =>
    have before := (neutral_colons two).append (neutral_named named) depth
    rw [← List.append_assoc, read_append, along_append, before.1]
    exact ⟨rfl, fun _ => ⟨before.2, uncut_within depth (by decide), trivial⟩⟩

theorem comma_text (own : Lexeme rest text .comma) : text = [','] := by
  cases own with
  | sign listed =>
    obtain rfl : _ = ',' := by simpa [signs] using listed
    rfl

/-- The cuts of a row of tokens are the commas between its branches. -/
theorem cuts_of_lexed (lexed : Lexed s row) (tidy : ∀ spelt ∈ row, TidyToken spelt.1) (depth : Nat) (begun : List Spelt) :
    (topLevelFrom (· == ',') (within depth) (spelling begun.reverse).reverse s).map trim =
      (branchesFrom depth begun row).map (trim ∘ spelling) := by
  -- The text begun is that of the tokens begun.
  induction lexed generalizing depth begun with
  | @done gap room =>
    rw [topLevelFrom_uncut (neutral_airy room depth).2, List.reverse_reverse, branchesFrom, List.map_singleton,
      List.map_singleton, trim_before_blanks fun c member => (room c member).1]
    rfl
  | @more gap text rest token row room own later ih =>
    obtain ⟨tidyToken, others⟩ := List.forall_mem_cons.mp tidy
    obtain ⟨blank, uncut⟩ := neutral_airy room depth
    obtain ⟨read, whole⟩ := lexeme_nest own tidyToken depth
    rw [topLevelFrom_append uncut, blank]
    by_cases comma : depth = 0 ∧ token = .comma
    · rw [branchesFrom, if_pos comma]
      obtain ⟨rfl, rfl⟩ := comma
      obtain rfl := comma_text own
      have cuts : Nest.cutsAt {} (· == ',') ',' = true := by decide
      have onward := ih others 0 []
      have start : topLevelFrom (· == ',') (within 0) (gap.reverse ++ (spelling begun.reverse).reverse) ([','] ++ rest) =
          (spelling begun.reverse ++ gap) :: topLevelFrom (· == ',') (within 0) [] rest := by
        rw [List.singleton_append]
        refine (topLevelFrom_cut cuts _ rest).trans ?_
        rw [List.reverse_append, List.reverse_reverse, List.reverse_reverse]
        rfl
      rw [start, List.map_cons, List.map_cons, trim_before_blanks fun c member => (room c member).1]
      exact congrArg _ onward
    · rw [topLevelFrom_append (whole comma), read, branchesFrom, if_neg comma]
      have onward := ih others (behind token depth) ((token, gap ++ text) :: begun)
      have joined : (spelling ((token, gap ++ text) :: begun).reverse).reverse =
          text.reverse ++ (gap.reverse ++ (spelling begun.reverse).reverse) := by simp [spelling]
      rwa [joined] at onward

end Tokens

end CascadeLens.Proofs.SelectorCuts
