import CascadeLens.Proofs.SelectorEscapes
import CascadeLens.Proofs.SelectorLexing

/-! The forms in which the tokens of a selector are written before the rest of a text. Less of a text behind
a token leaves it as it is, and blanks at its end can go. -/

namespace CascadeLens.Proofs.SelectorLexemes
open Text Selector TextShape SelectorWriting SelectorNames SelectorLexing SelectorEscapes

def signs : List (Char × Token) :=
  [(',', .comma), (')', .close), ('>', .combinator), ('+', .combinator), ('~', .combinator),
    ('&', .simple .nesting), ('*', .simple .universal)]

/-- Blanks between tokens. -/
def Airy (gap : Text) : Prop := ∀ c ∈ gap, isBlank c = true ∧ isAscii c = true

/-- Whether a text begins with a name that opens arguments. -/
def opens (s : Text) : Bool := !(s.takeWhile isNameChar).isEmpty && (s.dropWhile isNameChar).head? == some '('

structure Named (name : Text) : Prop where
  filled : name ≠ []
  letters : ∀ c ∈ name, isNameChar c = true

/-- How a token is written before the rest of a text. -/
inductive Lexeme (rest : Text) : Text → Token → Prop
  | sign {c : Char} {token : Token} (listed : (c, token) ∈ signs) : Lexeme rest [c] token
  | column : Lexeme rest ['|', '|'] .combinator
  | typeName {name : Text} (word : Word rest name) : Lexeme rest name (.simple (.typeName name))
  | className {gap name : Text} (room : Airy gap) (word : Word rest name) :
      Lexeme rest ('.' :: (gap ++ name)) (.simple (.className name))
  | idName {name : Text} (filled : name ≠ []) (own : Name rest name) : Lexeme rest ('#' :: name) (.simple (.idName name))
  | bracket {content : Text} (filled : content ≠ []) (inert : Inert content) :
      Lexeme rest ('[' :: (content ++ [']'])) (.simple (.attribute content))
  | pseudo {colons gap name : Text} (two : Colons colons) (room : Airy gap) (word : Word rest name)
      (closed : opens (gap ++ (name ++ rest)) = false) :
      Lexeme rest (colons ++ (gap ++ name))
        (.simple (if colons.length == 2 then .pseudoElement name else .pseudoClass name))
  | function {colons name arguments : Text} (two : Colons colons) (named : Named name)
      (free : listFunction? colons.length name = none) (balanced : Paired '(' ')' arguments)
      (bare : holds ['/', '*'] arguments = false) :
      Lexeme rest (colons ++ (name ++ '(' :: (arguments ++ [')'])))
        (.simple (if colons.length == 2 then .elementFunction (name ++ '(' :: (arguments ++ [')']))
          else .pseudoFunction (name ++ '(' :: (arguments ++ [')']))))
  | list {colons name : Text} {function : ListFunction} (two : Colons colons) (named : Named name)
      (listed : listFunction? colons.length name = some function) :
      Lexeme rest (colons ++ (name ++ ['('])) (.enter function)

section Lexemes

variable {s t rest less gap name text : Text} {token : Token} {c : Char}

theorem opens_iff : opens s = true ↔ ∃ name more, Named name ∧ s = name ++ '(' :: more := by
  constructor
  · intro opening
    simp only [opens, Bool.and_eq_true, Bool.not_eq_true', List.isEmpty_eq_false_iff, beq_iff_eq] at opening
    obtain ⟨filled, first⟩ := opening
    obtain ⟨more, behind⟩ := List.head?_eq_some_iff.mp first
    exact ⟨_, more, ⟨filled, List.all_eq_true.mp List.all_takeWhile⟩, by rw [← behind, List.takeWhile_append_dropWhile]⟩
  · rintro ⟨name, more, named, rfl⟩
    have run := takeWhile_open named.letters more
    have behind : (name ++ '(' :: more).dropWhile isNameChar = '(' :: more := by
      have whole := List.takeWhile_append_dropWhile (p := isNameChar) (l := name ++ '(' :: more)
      rw [run] at whole
      exact List.append_cancel_left whole
    simp [opens, run, behind, named.filled]

theorem closed_shorter (closed : opens s = false) (shorter : t <+: s) : opens t = false := by
  by_contra opening
  obtain ⟨name, more, named, rfl⟩ := opens_iff.mp (by simpa using opening)
  obtain ⟨after, rfl⟩ := shorter
  have opened : opens ((name ++ '(' :: more) ++ after) = true := opens_iff.mpr ⟨name, more ++ after, named, by simp⟩
  exact absurd (closed.symm.trans opened) (by decide)

/-- A token is the same where less of the text follows it. -/
theorem Lexeme.truncate (own : Lexeme rest text token) (shorter : less <+: rest) : Lexeme less text token := by
  cases own with
  | sign listed => exact .sign listed
  | column => exact .column
  | typeName word => exact .typeName (word.truncate shorter)
  | className room word => exact .className room (word.truncate shorter)
  | idName filled own => exact .idName filled (own.truncate shorter)
  | bracket filled inert => exact .bracket filled inert
  | pseudo two room word closed =>
    refine .pseudo two room (word.truncate shorter) (closed_shorter closed ?_)
    exact (List.prefix_append_right_inj _).mpr ((List.prefix_append_right_inj _).mpr shorter)
  | function two named free balanced bare => exact .function two named free balanced bare
  | list two named listed => exact .list two named listed

theorem escape_in_lower {s : Text} (escape : '\\' ∈ s) : '\\' ∈ lower s := by
  have after : ∀ cased, '\\' ∈ lowerAfter cased s := by
    induction s with
    | nil => cases escape
    | cons c rest ih =>
      intro cased
      rcases List.mem_cons.mp escape with rfl | later
      · simp [lowerAfter, show lowerChar '\\' = '\\' by decide]
      · unfold lowerAfter
        dsimp only
        split_ifs <;> simp [ih later]
  exact after false

theorem not_legacy_of_escape (escape : '\\' ∈ name) : isLegacyElement name = false := by
  rw [isLegacyElement, List.any_eq_false]
  intro legacy member same
  have silent : ∀ legacy ∈ ["before", "after", "first-line", "first-letter"], '\\' ∉ legacy.toList := by decide
  have spelt : lower name = legacy.toList := by simpa using same
  exact silent legacy member (spelt ▸ escape_in_lower escape)

/-- The second tokens are the first ones, or the last is a simple selector that counts for the same. -/
inductive Alike (tokens : List Token) : List Token → Prop
  | same : Alike tokens tokens
  | last {front : List Token} {part other : Simple} (whole : tokens = front ++ [.simple part])
      (weight : part.weight = other.weight) :
      Alike tokens (front ++ [.simple other])

theorem alike_single {part other : Simple} (weight : part.weight = other.weight) : Alike [.simple part] [.simple other] :=
  @Alike.last [.simple part] [] part other rfl weight

theorem sign_solid {c : Char} (listed : (c, token) ∈ signs) : isBlank c = false := by
  have all : ∀ sign ∈ signs, isBlank sign.1 = false := by decide
  exact all (c, token) listed

/-- A token at the end of a text, without blanks behind it. -/
theorem Lexeme.shorten (own : Lexeme [] text token) (clear : Clear text) :
    ∃ short other, Lexeme [] short other ∧ Shortened text short ∧ Alike [token] [other] := by
  cases own with
  | @sign c token listed =>
    exact ⟨[c], token, .sign listed, @Shortened.closed [] c (sign_solid listed), .same⟩
  | column => exact ⟨_, _, .column, @Shortened.closed ['|'] '|' (by decide), .same⟩
  | typeName word =>
    obtain ⟨short, word', shortened⟩ := word.shorten clear
    exact ⟨_, _, .typeName word', shortened, alike_single rfl⟩
  | @className gap name room word =>
    obtain ⟨short, word', shortened⟩ := word.shorten clear.tail.right
    exact ⟨_, _, .className room word', shortened.behind ('.' :: gap) word'.filled, alike_single rfl⟩
  | @idName name filled own =>
    obtain ⟨short, own', shortened⟩ := own.shorten clear.tail
    have left := shortened.filled filled
    exact ⟨_, _, .idName left own', shortened.behind ['#'] left, alike_single rfl⟩
  | @bracket content filled inert =>
    exact ⟨_, _, .bracket filled inert, @Shortened.closed ('[' :: content) ']' (by decide), .same⟩
  | @pseudo colons gap name two room word closed =>
    obtain ⟨short, word', shortened⟩ := word.shorten clear.right.right
    have shorter : gap ++ (short ++ []) <+: gap ++ (name ++ []) := by
      rw [List.append_nil, List.append_nil]
      exact (List.prefix_append_right_inj gap).mpr shortened.shorter
    refine ⟨_, _, .pseudo two room word' (closed_shorter closed shorter), ?_, ?_⟩
    · exact (shortened.behind gap word'.filled).behind colons (by simp [word'.filled])
    · apply alike_single
      split
      · rfl
      · rcases shortened.same with rfl | escape
        · rfl
        · have inside := shortened.shorter.subset escape
          rw [Simple.weight, Simple.weight, not_legacy_of_escape escape, not_legacy_of_escape inside]
  | @function colons name arguments two named free balanced bare =>
    have shortened := @Shortened.closed (colons ++ (name ++ '(' :: arguments)) ')' (by decide)
    simp only [List.append_assoc, List.cons_append] at shortened
    exact ⟨_, _, .function two named free balanced bare, shortened, .same⟩
  | @list colons name function two named listed =>
    have shortened := @Shortened.closed (colons ++ name) '(' (by decide)
    rw [List.append_assoc] at shortened
    exact ⟨_, _, .list two named listed, shortened, .same⟩

end Lexemes

section Reading

variable {s rest gap name text : Text} {token : Token} {extra : Nat} {c : Char}

theorem begins_first (leading : leads name = true) : ∃ c more, name = c :: more ∧ (c = '-' ∨ begins c = true) := by
  rcases leads_cases leading with ⟨more, rfl⟩ | ⟨c, more, first, rfl⟩ | ⟨c, more, first, rfl⟩
  · exact ⟨_, _, rfl, Or.inl rfl⟩
  · exact ⟨_, _, rfl, Or.inl rfl⟩
  · exact ⟨_, _, rfl, Or.inr first⟩

/-- No mark but a hyphen or a backslash begins an identifier. -/
theorem word_apart (first : c = '-' ∨ begins c = true) : c ∉ marks.drop 2 := by
  intro listed
  have silent : ∀ c ∈ marks.drop 2, ¬ (c = '-' ∨ begins c = true) := by decide
  exact silent c listed first

theorem word_not_blank (first : c = '-' ∨ begins c = true) (ascii : isBlank c = true → isAscii c = true) :
    isBlank c = false := by
  by_contra white
  have white : isBlank c = true := by simpa using white
  exact @every_ascii (fun c => c = '-' ∨ begins c = true → ¬ isBlank c = true) (by decide) c
    (ascii white) first white

theorem word_solid (word : Word rest name) (ascii : ∀ c ∈ name, isBlank c = true → isAscii c = true) :
    Solid (name ++ rest) := by
  obtain ⟨c, more, rfl, first⟩ := begins_first word.leading
  intro d found
  obtain rfl := Option.some.inj found
  exact ⟨word_not_blank first (ascii c List.mem_cons_self), fun slash => word_apart first (slash ▸ by decide)⟩

theorem colonToken_closed (closed : opens s = false) (colons : Nat) :
    colonToken? colons s =
      match identifierLength (s.drop (gapLength s)) with
      | 0 => none
      | length =>
        some (.simple (if colons == 2 then .pseudoElement ((s.drop (gapLength s)).take length)
          else .pseudoClass ((s.drop (gapLength s)).take length)), gapLength s + length) := by
  have behind : s.drop (s.takeWhile isNameChar).length = s.dropWhile isNameChar := by
    have whole := congrArg (List.drop (s.takeWhile isNameChar).length)
      (List.takeWhile_append_dropWhile (p := isNameChar) (l := s))
    rw [List.drop_left] at whole
    exact whole.symm
  unfold colonToken?
  dsimp only
  rw [behind]
  split
  next c more rest run after => simp [opens, run, after] at closed
  next => rfl

private theorem read_colons {colons body : Text} (two : Colons colons) (other : (body ++ rest).head? ≠ some ':')
    (read : colonToken? colons.length (body ++ rest) = some (token, body.length)) :
    ∃ c more, colons ++ body = c :: more ∧ isBlank c = false ∧ c ≠ '/' ∧
      token? c (more ++ rest) = some (token, more.length) := by
  obtain ⟨more, rfl, taken⟩ := token_colons two other read
  refine ⟨':', more ++ body, rfl, by decide, by decide, ?_⟩
  rw [List.append_assoc, taken, List.length_append]

private theorem named_no_colon (named : Named name) (s : Text) : (name ++ s).head? ≠ some ':' := by
  obtain ⟨c, more, rfl⟩ := List.exists_cons_of_ne_nil named.filled
  intro first
  obtain rfl := Option.some.inj first
  exact absurd (named.letters ':' List.mem_cons_self) (by decide)

private theorem spaced_no_colon (room : Airy gap) (leading : leads name = true) (s : Text) :
    (gap ++ (name ++ s)).head? ≠ some ':' := by
  intro found
  cases gap with
  | nil =>
    obtain ⟨c, more, rfl, first⟩ := begins_first leading
    obtain rfl := Option.some.inj found
    exact word_apart first (by decide)
  | cons c gap =>
    obtain rfl := Option.some.inj found
    exact absurd (room ':' List.mem_cons_self).1 (by decide)

/-- What is written as a token is read as one. -/
theorem Lexeme.read (own : Lexeme rest text token) (ascii : ∀ c ∈ text, isBlank c = true → isAscii c = true) :
    ∃ c more, text = c :: more ∧ isBlank c = false ∧ c ≠ '/' ∧ token? c (more ++ rest) = some (token, more.length) := by
  cases own with
  | sign listed =>
    simp only [signs, List.mem_cons, Prod.mk.injEq, List.not_mem_nil, or_false] at listed
    rcases listed with ⟨rfl, rfl⟩ | ⟨rfl, rfl⟩ | ⟨rfl, rfl⟩ | ⟨rfl, rfl⟩ | ⟨rfl, rfl⟩ | ⟨rfl, rfl⟩ | ⟨rfl, rfl⟩
    all_goals exact ⟨_, [], rfl, by decide, by decide, rfl⟩
  | column => exact ⟨'|', ['|'], rfl, by decide, by decide, rfl⟩
  | typeName word =>
    have length := word.length
    have solid := word_solid word ascii
    obtain ⟨c, more, rfl, first⟩ := begins_first word.leading
    obtain ⟨white, slash⟩ := solid c rfl
    exact ⟨c, more, rfl, white, slash, token_word (word_apart first) length⟩
  | @className gap name room word =>
    have inner : ∀ c ∈ name, isBlank c = true → isAscii c = true := fun c member => ascii c (by simp [member])
    have room' := gapLength_append ⟨gap, room⟩ (word_solid word inner)
    refine ⟨'.', _, rfl, by decide, by decide, ?_⟩
    rw [List.append_assoc]
    exact token_dot word.filled room' word.length
  | idName filled own => exact ⟨'#', _, rfl, by decide, by decide, token_hash filled own.length⟩
  | bracket filled inert =>
    refine ⟨'[', _, rfl, by decide, by decide, ?_⟩
    rw [List.append_assoc, List.singleton_append, token_bracket filled inert, List.length_append]
    rfl
  | @pseudo colons gap name two room word closed =>
    have inner : ∀ c ∈ name, isBlank c = true → isAscii c = true := fun c member => ascii c (by simp [member])
    have room' := gapLength_append ⟨gap, room⟩ (word_solid word inner)
    have length := word.length
    have read := colonToken_closed closed colons.length
    simp only [room', List.drop_left, length] at read
    apply read_colons two
    · rw [List.append_assoc]
      exact spaced_no_colon room word.leading rest
    · rw [List.append_assoc, read, List.length_append]
      obtain ⟨c, more, rfl⟩ := List.exists_cons_of_ne_nil word.filled
      simp
  | @function colons name arguments two named free balanced bare =>
    have closed := @argumentsLength_closed arguments 0 true balanced bare rest
    have read := colonToken_arguments named.letters named.filled free closed
    have whole : (name ++ '(' :: (arguments ++ [')'])) ++ rest = name ++ '(' :: (arguments ++ ')' :: rest) := by simp
    have length : name.length + 1 + (arguments.length + 1) = (name ++ '(' :: (arguments ++ [')'])).length := by
      simp only [List.length_append, List.length_cons, List.length_nil]
      omega
    apply read_colons two
    · rw [List.append_assoc]
      exact named_no_colon named _
    · rw [← whole] at read
      simp only [length, List.take_left] at read
      exact read
  | @list colons name function two named listed =>
    have read := colonToken_list named.letters named.filled listed rest
    apply read_colons two
    · rw [List.append_assoc]
      exact named_no_colon named _
    · rw [List.append_assoc, List.length_append]
      exact read

theorem holds_comment_iff : holds ['/', '*'] s = false ↔ s.IsChain (fun a b => a = '/' → b ≠ '*') := by
  induction s with
  | nil => simp [holds]
  | cons c rest ih =>
    cases rest with
    | nil => simp [holds, beginsWith, drop?]
    | cons d more =>
      have pair : beginsWith (c :: d :: more) ['/', '*'] = false ↔ (c = '/' → d ≠ '*') := by
        by_cases slash : c = '/'
        · subst slash
          by_cases star : d = '*' <;> simp [beginsWith, drop?, star, Ne.symm]
        · simp [beginsWith, drop?, slash, Ne.symm slash]
      rw [List.isChain_cons_cons, ← ih, ← pair, holds, Bool.or_eq_false_iff]

/-- What begins a comment goes on with a star. -/
theorem comment_star {length : Nat} (comment : commentRest? rest = some length) :
    ∃ more, rest.take length = '*' :: more := by
  unfold commentRest? at comment
  split at comment
  next more =>
    obtain ⟨inner, -, rfl⟩ := Option.map_eq_some_iff.mp comment
    exact ⟨more.take inner, List.take_succ_cons⟩
  next => cases comment

theorem no_comment_in_bare {length : Nat} {more : Text} (comment : commentRest? rest = some length)
    (bare : Bare ('/' :: (rest.take length ++ more))) : False := by
  obtain ⟨body, star⟩ := comment_star comment
  rw [star] at bare
  exact (List.isChain_cons_cons.mp bare.comments).1 rfl rfl

/-- What is left out in front of a token are blanks. -/
theorem gap_airy (bare : Bare (s.take (gapLength s))) : Airy (s.take (gapLength s)) := by
  fun_induction gapLength s with
  | case1 => simp [Airy]
  | case2 c rest white blanks ih =>
    rw [Bool.and_eq_true] at white
    have run : rest.take blanks = rest.takeWhile isBlank := List.prefix_iff_eq_take.mp (List.takeWhile_prefix _) |>.symm
    rw [Nat.add_assoc, Nat.add_comm, List.take_succ_cons, List.take_add] at bare ⊢
    refine List.forall_mem_cons.mpr ⟨white, List.forall_mem_append.mpr ⟨?_, ih bare.tail.right⟩⟩
    intro d member
    have blank := List.all_eq_true.mp List.all_takeWhile d (run ▸ member)
    exact ⟨blank, bare.ascii d (List.mem_cons_of_mem _ (List.mem_append_left _ member)) blank⟩
  | case3 c rest other length comment ih =>
    split at comment
    next slash =>
      obtain rfl : c = '/' := by simpa using slash
      rw [Nat.add_right_comm, List.take_succ_cons, List.take_add] at bare
      exact (no_comment_in_bare comment bare).elim
    next => cases comment
  | case4 c rest other comment => simp [Airy]

theorem not_escape (last : c = '\\' → s = [] → False) (pair : ∀ d rest, c = '\\' → s = d :: rest → False) :
    c ≠ '\\' := by
  intro escape
  cases s with
  | nil => exact last escape rfl
  | cons d rest => exact pair d rest escape rfl

/-- A string behind its quote is the same whatever follows it. -/
private theorem string_of_length {quote : Char} (length : stringLength? quote s = some extra) :
    ∃ body, s = body ++ s.drop extra ∧ body.length = extra ∧ ∀ rest, stringLength? quote (body ++ rest) = some extra := by
  fun_induction stringLength? quote s generalizing extra with
  | case1 => cases length
  | case2 => cases length
  | case3 => cases length
  | case4 c rest line ih =>
    obtain ⟨inner, found, rfl⟩ := Option.map_eq_some_iff.mp length
    obtain ⟨body, whole, size, alike⟩ := ih found
    refine ⟨'\\' :: c :: body, ?_, by simp [size], fun more => ?_⟩
    · rw [List.drop_succ_cons, List.drop_succ_cons, List.cons_append, List.cons_append, ← whole]
    · simp [stringLength?, line, alike]
  | case5 c rest last pair closes =>
    obtain rfl := Option.some.inj length
    have plain := not_escape last pair
    refine ⟨[c], rfl, rfl, fun more => ?_⟩
    simp [stringLength?, plain, closes]
  | case6 c rest last pair closes line => cases length
  | case7 c rest last pair closes line ih =>
    obtain ⟨inner, found, rfl⟩ := Option.map_eq_some_iff.mp length
    obtain ⟨body, whole, size, alike⟩ := ih found
    have plain := not_escape last pair
    refine ⟨c :: body, ?_, by simp [size], fun more => ?_⟩
    · rw [List.drop_succ_cons, List.cons_append, ← whole]
    · simp [stringLength?, plain, closes, line, alike]

theorem bracket_of_length (length : attributeLength? s = some extra) :
    ∃ content, s = content ++ ']' :: s.drop extra ∧ content.length + 1 = extra ∧ Inert content := by
  fun_induction attributeLength? s generalizing extra with
  | case1 => cases length
  | case2 c rest bracket =>
    obtain rfl : c = ']' := by simpa using bracket
    obtain rfl := Option.some.inj length
    exact ⟨[], rfl, rfl, inert_bare (by simp)⟩
  | case3 c rest bracket quote none => cases length
  | case4 c rest bracket quote size string ih =>
    obtain ⟨inner, found, rfl⟩ := Option.map_eq_some_iff.mp length
    obtain ⟨content, whole, length, inert⟩ := ih found
    obtain ⟨body, split, rfl, alike⟩ := string_of_length string
    have own : Inert (c :: body) := by
      intro more
      rw [List.cons_append, attributeLength?.eq_def]
      simp [bracket, quote, alike]
    refine ⟨(c :: body) ++ content, ?_, ?_, own.append inert⟩
    · have later : rest.drop (body.length + inner) = (rest.drop body.length).drop inner := List.drop_drop.symm
      have moved : inner + (body.length + 1) = (body.length + inner) + 1 := by omega
      rw [moved, List.drop_succ_cons, later, List.append_assoc, ← whole, List.cons_append, ← split]
    · simp only [List.length_append, List.length_cons]
      omega
  | case5 c rest bracket quote ih =>
    obtain ⟨inner, found, rfl⟩ := Option.map_eq_some_iff.mp length
    obtain ⟨content, whole, size, inert⟩ := ih found
    have own : Inert [c] := inert_bare (by simpa [not_or] using And.intro bracket quote)
    refine ⟨c :: content, ?_, by rw [← size, List.length_cons], own.append inert⟩
    rw [List.drop_succ_cons, List.cons_append, ← whole]

theorem arguments_of_length {depth : Nat} {fresh : Bool} (bare : Bare (s.take extra))
    (length : argumentsLength? depth fresh s = some extra) :
    ∃ arguments, s = arguments ++ ')' :: s.drop extra ∧ arguments.length + 1 = extra ∧
      balanceFrom '(' ')' depth arguments = some 0 := by
  fun_induction argumentsLength? depth fresh s generalizing extra with
  | case1 => cases length
  | case2 depth fresh c rest opener ih =>
    obtain rfl : c = '(' := by simpa using opener
    obtain ⟨inner, found, rfl⟩ := Option.map_eq_some_iff.mp length
    obtain ⟨arguments, whole, size, balance⟩ := ih bare.tail found
    refine ⟨'(' :: arguments, ?_, by rw [← size, List.length_cons], balance⟩
    rw [List.drop_succ_cons, List.cons_append, ← whole]
  | case3 fresh c rest opener closer =>
    obtain rfl : c = ')' := by simpa using closer
    obtain rfl := Option.some.inj length
    exact ⟨[], rfl, rfl, rfl⟩
  | case4 fresh c rest opener closer depth ih =>
    obtain rfl : c = ')' := by simpa using closer
    obtain ⟨inner, found, rfl⟩ := Option.map_eq_some_iff.mp length
    obtain ⟨arguments, whole, size, balance⟩ := ih bare.tail found
    refine ⟨')' :: arguments, ?_, by rw [← size, List.length_cons], balance⟩
    rw [List.drop_succ_cons, List.cons_append, ← whole]
  | case5 depth fresh c rest opener closer hidden comment ih =>
    obtain ⟨inner, found, rfl⟩ := Option.map_eq_some_iff.mp length
    split at comment
    next slash =>
      obtain rfl : c = '/' := by simp_all
      rw [← Nat.add_assoc, List.take_succ_cons, Nat.add_comm inner, List.take_add] at bare
      exact (no_comment_in_bare comment bare).elim
    next => cases comment
  | case6 depth fresh c rest opener closer comment ih =>
    obtain ⟨inner, found, rfl⟩ := Option.map_eq_some_iff.mp length
    obtain ⟨arguments, whole, size, balance⟩ := ih bare.tail found
    have first : balanceStep '(' ')' depth c = some depth := by
      simp only [beq_iff_eq] at opener closer
      simp [balanceStep, opener, closer]
    refine ⟨c :: arguments, ?_, by rw [← size, List.length_cons], ?_⟩
    · rw [List.drop_succ_cons, List.cons_append, ← whole]
    · rw [balanceFrom, List.foldlM_cons, first]
      exact balance

def isAttribute : Token → Bool
  | .simple (.attribute _) => true
  | _ => false

/-- Only in the brackets of an attribute the marks of a comment may stand. -/
def Uncommented (text : Text) (token : Token) : Prop := isAttribute token = false → Bare text

instance (text : Text) (token : Token) : Decidable (Uncommented text token) := inferInstanceAs (Decidable (_ → _))

theorem lexeme_of_colons {colons : Text} (two : Colons colons) (bare : Uncommented (s.take extra) token)
    (read : colonToken? colons.length s = some (token, extra)) : Lexeme (s.drop extra) (colons ++ s.take extra) token := by
  by_cases opening : opens s = true
  · obtain ⟨name, rest, named, rfl⟩ := opens_iff.mp opening
    rw [colonToken_open named.letters named.filled] at read
    split at read
    next function listed =>
      obtain ⟨rfl, rfl⟩ := Prod.mk.inj (Option.some.inj read)
      have whole : name ++ '(' :: rest = (name ++ ['(']) ++ rest := by simp
      have size : name.length + 1 = (name ++ ['(']).length := by simp
      rw [whole, size, List.drop_left, List.take_left]
      exact .list two named listed
    next free =>
      obtain ⟨length, closed, same⟩ := Option.map_eq_some_iff.mp read
      obtain ⟨rfl, rfl⟩ := Prod.mk.inj same
      have open' := bare (by split <;> rfl)
      rw [Nat.add_assoc, List.take_length_add_append, Nat.add_comm 1, List.take_succ_cons] at open'
      have inner := open'.right.tail
      obtain ⟨arguments, split, size, balance⟩ := arguments_of_length inner closed
      have taken : rest.take length = arguments ++ [')'] := by
        rw [List.append_cons] at split
        conv_lhs => rw [split]
        exact List.take_left' (by simp [size])
      rw [taken] at inner
      have bare := holds_comment_iff.mpr inner.left.comments
      have whole : name ++ '(' :: rest = (name ++ '(' :: (arguments ++ [')'])) ++ rest.drop length := by
        conv_lhs => rw [split]
        simp
      have full : name.length + 1 + length = (name ++ '(' :: (arguments ++ [')'])).length := by
        simp only [← size, List.length_append, List.length_cons, List.length_nil]
        omega
      rw [whole, full, List.drop_left, List.take_left]
      exact .function two named free balance bare
  · have closed : opens s = false := by simpa using opening
    rw [colonToken_closed closed] at read
    split at read
    next => cases read
    next size other =>
      obtain ⟨rfl, rfl⟩ := Prod.mk.inj (Option.some.inj read)
      have word := word_of_length other
      have whole : s = s.take (gapLength s) ++ ((s.drop (gapLength s)).take (identifierLength (s.drop (gapLength s))) ++
          (s.drop (gapLength s)).drop (identifierLength (s.drop (gapLength s)))) := by
        rw [List.take_append_drop, List.take_append_drop]
      have open' := bare (by split <;> rfl)
      rw [List.take_add] at open' ⊢
      rw [← List.drop_drop]
      exact .pseudo two (gap_airy open'.left) word (whole ▸ closed)

theorem lexeme_of_bracket (length : attributeLength? s = some extra) (long : 1 < extra) :
    Lexeme (s.drop extra) ('[' :: s.take extra) (.simple (.attribute (s.take (extra - 1)))) := by
  obtain ⟨content, whole, rfl, inert⟩ := bracket_of_length length
  have filled : content ≠ [] := by
    rintro rfl
    exact absurd long (Nat.lt_irrefl 1)
  have closed : s = (content ++ [']']) ++ s.drop (content.length + 1) := by
    rw [List.append_assoc]
    exact whole
  have front : s.take (content.length + 1) = content ++ [']'] := by
    conv_lhs => rw [closed]
    exact List.take_left' (by simp)
  have inner : s.take (content.length + 1 - 1) = content := by
    conv_lhs => rw [whole]
    exact List.take_left' (by simp)
  rw [front, inner]
  exact .bracket filled inert

/-- What is read as a token is written as one. -/
theorem lexeme_of_token (bare : Uncommented (c :: s.take extra) token) (read : token? c s = some (token, extra)) :
    Lexeme (s.drop extra) (c :: s.take extra) token := by
  unfold token? at read
  by_cases colon : (c == ':') = true
  · rw [if_pos colon] at read
    obtain rfl : c = ':' := by simpa using colon
    split at read
    next more =>
      obtain ⟨⟨token, length⟩, inner, same⟩ := Option.map_eq_some_iff.mp read
      obtain ⟨rfl, rfl⟩ := Prod.mk.inj same
      have open' : Uncommented (more.take length) token := fun apart => (bare apart).tail.tail
      have own := @lexeme_of_colons more token length [':', ':'] (Or.inr rfl) open' inner
      rw [List.drop_succ_cons, List.take_succ_cons]
      exact own
    next => exact @lexeme_of_colons s token extra [':'] (Or.inl rfl) (fun apart => (bare apart).tail) read
  rw [if_neg colon] at read
  by_cases dot : (c == '.') = true
  · rw [if_pos dot] at read
    obtain rfl : c = '.' := by simpa using dot
    dsimp only at read
    split at read
    next => cases read
    next size other =>
      obtain ⟨rfl, rfl⟩ := Prod.mk.inj (Option.some.inj read)
      have word := word_of_length other
      have open' := (bare rfl).tail
      rw [List.take_add] at open' ⊢
      rw [← List.drop_drop]
      exact .className (gap_airy open'.left) word
  rw [if_neg dot] at read
  by_cases hash : (c == '#') = true
  · rw [if_pos hash] at read
    obtain rfl : c = '#' := by simpa using hash
    split at read
    next => cases read
    next size other =>
      obtain ⟨rfl, rfl⟩ := Prod.mk.inj (Option.some.inj read)
      have own := name_of_length s
      refine .idName ?_ own
      intro empty
      have none := own.length
      rw [List.take_append_drop, empty] at none
      exact other none
  rw [if_neg hash] at read
  by_cases bracket : (c == '[') = true
  · rw [if_pos bracket] at read
    obtain rfl : c = '[' := by simpa using bracket
    split at read
    next => cases read
    next length found =>
      split at read
      · cases read
      next long =>
        obtain ⟨rfl, rfl⟩ := Prod.mk.inj (Option.some.inj read)
        exact lexeme_of_bracket found (Nat.not_le.mp long)
  rw [if_neg bracket] at read
  by_cases combinator : (c == '>' || c == '+' || c == '~') = true
  · rw [if_pos combinator] at read
    obtain ⟨rfl, rfl⟩ := Prod.mk.inj (Option.some.inj read)
    simp only [Bool.or_eq_true, beq_iff_eq] at combinator
    rcases combinator with (rfl | rfl) | rfl
    all_goals exact .sign (by decide)
  rw [if_neg combinator] at read
  by_cases bar : (c == '|') = true
  · rw [if_pos bar] at read
    obtain rfl : c = '|' := by simpa using bar
    split at read
    next more =>
      obtain ⟨rfl, rfl⟩ := Prod.mk.inj (Option.some.inj read)
      exact .column
    next => cases read
  rw [if_neg bar] at read
  by_cases nesting : (c == '&') = true
  · rw [if_pos nesting] at read
    obtain ⟨rfl, rfl⟩ := Prod.mk.inj (Option.some.inj read)
    obtain rfl : c = '&' := by simpa using nesting
    exact .sign (by decide)
  rw [if_neg nesting] at read
  by_cases star : (c == '*') = true
  · rw [if_pos star] at read
    obtain ⟨rfl, rfl⟩ := Prod.mk.inj (Option.some.inj read)
    obtain rfl : c = '*' := by simpa using star
    exact .sign (by decide)
  rw [if_neg star] at read
  by_cases comma : (c == ',') = true
  · rw [if_pos comma] at read
    obtain ⟨rfl, rfl⟩ := Prod.mk.inj (Option.some.inj read)
    obtain rfl : c = ',' := by simpa using comma
    exact .sign (by decide)
  rw [if_neg comma] at read
  by_cases close : (c == ')') = true
  · rw [if_pos close] at read
    obtain ⟨rfl, rfl⟩ := Prod.mk.inj (Option.some.inj read)
    obtain rfl : c = ')' := by simpa using close
    exact .sign (by decide)
  rw [if_neg close] at read
  split at read
  next => cases read
  next length size =>
    obtain ⟨rfl, rfl⟩ := Prod.mk.inj (Option.some.inj read)
    have word := @word_of_length (c :: s) (by rw [size]; exact Nat.succ_ne_zero length)
    rw [size, List.drop_succ_cons, List.take_succ_cons] at word
    rw [List.take_succ_cons]
    exact .typeName word

end Reading

end CascadeLens.Proofs.SelectorLexemes
