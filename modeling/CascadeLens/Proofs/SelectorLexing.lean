import CascadeLens.Proofs.SelectorNames

/-! How the pieces of a selector are cut into tokens, given what may follow each of them. -/

namespace CascadeLens.Proofs.SelectorLexing
open Text Selector TextShape SelectorWriting SelectorNames

/-- Characters that end a name and open no arguments. -/
def stops (c : Char) : Bool := isAscii c && !isNameChar c && c != '\\' && c != '('

def Ends (rest : Text) : Prop := ∀ c, rest.head? = some c → stops c = true

/-- There is nothing in front to be left out. -/
def Solid (rest : Text) : Prop := ∀ c, rest.head? = some c → isBlank c = false ∧ c ≠ '/'

/-- A text is cut into tokens wherever what follows it allows that. -/
def Lexes (follows : Text → Prop) (s : Text) (tokens : List Token) : Prop :=
  ∀ rest, follows rest → tokens? (s ++ rest) = (tokens? rest).map (tokens ++ ·)

theorem Lexes.append {first second : Text → Prop} {s t : Text} {tokens more : List Token} (before : Lexes first s tokens)
    (after : Lexes second t more) (fits : ∀ rest, second rest → first (t ++ rest)) :
    Lexes second (s ++ t) (tokens ++ more) := by
  intro rest follows
  rw [List.append_assoc, before _ (fits rest follows), after rest follows, Option.map_map]
  simp [Function.comp_def]

section Names

variable {s rest : Text}

theorem nameLength_append (letters : ∀ c ∈ s, isNameChar c = true) (ends : Ends rest) :
    nameLength (s ++ rest) = s.length := by
  induction s with
  | nil =>
    cases rest with
    | nil => rw [List.append_nil, nameLength, List.length_nil]
    | cons c more =>
      have stopped := ends c rfl
      simp only [stops, Bool.and_eq_true, Bool.not_eq_true', bne_iff_ne, ne_eq] at stopped
      obtain ⟨⟨⟨ascii, other⟩, escape⟩, -⟩ := stopped
      simp [nameLength, ascii, other, escape]
  | cons c more ih =>
    obtain ⟨own, others⟩ := List.forall_mem_cons.mp letters
    have escape : c ≠ '\\' := by
      rintro rfl
      exact absurd own (by decide)
    rw [List.cons_append, nameLength]
    simp [escape, own, ih others, Nat.add_comm]

theorem takeWhile_append (letters : ∀ c ∈ s, isNameChar c = true)
    (stopped : ∀ c, rest.head? = some c → isNameChar c = false) : (s ++ rest).takeWhile isNameChar = s := by
  rw [List.takeWhile_append_of_pos letters]
  cases rest with
  | nil => simp
  | cons c more => simp [stopped c rfl]

theorem gapLength_solid (solid : Solid s) : gapLength s = 0 := by
  cases s with
  | nil => rw [gapLength.eq_def]
  | cons c more =>
    obtain ⟨blank, slash⟩ := solid c rfl
    rw [gapLength.eq_def]
    simp [blank, slash]

theorem identifier_solid (name : Identifier) (rest : Text) : Solid (name.1 ++ rest) := by
  obtain ⟨c, more, spelt, _⟩ := identifier_cons name
  obtain ⟨apart, blank, _⟩ := identifier_begins name spelt
  intro d first
  rw [spelt] at first
  obtain rfl := Option.some.inj first
  refine ⟨blank, ?_⟩
  rintro rfl
  exact apart (by decide)

theorem identifierLength_append (name : Identifier) (ends : Ends rest) :
    identifierLength (name.1 ++ rest) = name.1.length := by
  have length := nameLength_append (identifier_isNameChar name) ends
  obtain ⟨c, more, spelt, _⟩ := identifier_cons name
  obtain ⟨apart, _, begins⟩ := identifier_begins name spelt
  rw [spelt, List.cons_append] at length ⊢
  have dash : c ≠ '-' := by
    rintro rfl
    exact apart (by decide)
  have word : (c.isAlpha || c == '_' || c == '\\' || !isAscii c) = true := by
    rcases begins with letter | rfl
    · simp [letter]
    · rfl
  unfold identifierLength
  split
  next same => exact absurd (List.cons.inj same).1 dash
  next same => exact absurd (List.cons.inj same).1 dash
  next => rw [wordLength, if_pos word, length]

end Names

section Tokens

variable {c : Char} {rest : Text} {token : Token} {extra : Nat}

theorem tokens_step (solid : isBlank c = false ∧ c ≠ '/') (read : token? c rest = some (token, extra)) :
    tokens? (c :: rest) = (tokens? (rest.drop extra)).map (token :: ·) := by
  have gap : gapLength (c :: rest) = 0 := gapLength_solid fun d first => Option.some.inj first ▸ solid
  rw [tokens?]
  simp only [gap, read]

theorem gapLength_append (gap : Gap) (solid : Solid rest) : gapLength (gap.1 ++ rest) = gap.1.length := by
  obtain ⟨s, white⟩ := gap
  cases s with
  | nil => exact gapLength_solid solid
  | cons c more =>
    obtain ⟨⟨blank, ascii⟩, others⟩ := List.forall_mem_cons.mp white
    have run : (more ++ rest).takeWhile isBlank = more := by
      rw [List.takeWhile_append_of_pos fun d member => (others d member).1]
      cases rest with
      | nil => simp
      | cons d others => simp [(solid d rfl).1]
    rw [List.cons_append, gapLength.eq_def]
    simp [blank, ascii, run, gapLength_solid solid, Nat.add_comm]

theorem lexes_gap (gap : Gap) : Lexes Solid gap.1 [] := by
  intro rest solid
  have length := gapLength_append gap solid
  obtain ⟨s, white⟩ := gap
  cases s with
  | nil => simp
  | cons c more =>
    rw [List.cons_append] at length ⊢
    rw [tokens?]
    simp [length]

theorem lexes_mark (solid : isBlank c = false ∧ c ≠ '/') (read : ∀ rest, token? c rest = some (token, 0)) :
    Lexes (fun _ => True) [c] [token] := by
  intro rest _
  rw [List.singleton_append, tokens_step solid (read rest)]
  rfl

theorem lexes_sign (sign : Sign) : Lexes (fun _ => True) [sign.mark] [.combinator] := by
  cases sign <;> exact lexes_mark (by decide) fun _ => rfl

theorem lexes_comma : Lexes (fun _ => True) [','] [.comma] := lexes_mark (by decide) fun _ => rfl

theorem lexes_close : Lexes (fun _ => True) [')'] [.close] := lexes_mark (by decide) fun _ => rfl

theorem lexes_universal : Lexes (fun _ => True) ['*'] [.simple .universal] := lexes_mark (by decide) fun _ => rfl

/-- A token whose first character says how much of what follows belongs to it. -/
theorem lexes_token {follows : Text → Prop} {s : Text} (solid : isBlank c = false ∧ c ≠ '/')
    (read : ∀ rest, follows rest → token? c (s ++ rest) = some (token, s.length)) : Lexes follows (c :: s) [token] := by
  intro rest follow
  rw [List.cons_append, tokens_step solid (read rest follow), List.drop_left]
  rfl

section Words

variable {rest word gap more : Text}

/-- All marks but the hyphen and the backslash begin tokens of their own. -/
theorem token_word (apart : c ∉ marks.drop 2)
    (length : identifierLength (c :: (more ++ rest)) = more.length + 1) :
    token? c (more ++ rest) = some (.simple (.typeName (c :: more)), more.length) := by
  simp only [marks, List.drop_succ_cons, List.drop_zero, List.mem_cons, List.not_mem_nil, or_false, not_or] at apart
  simp [token?, apart, length]

theorem token_dot (filled : word ≠ []) (room : gapLength (gap ++ (word ++ rest)) = gap.length)
    (length : identifierLength (word ++ rest) = word.length) :
    token? '.' (gap ++ (word ++ rest)) = some (.simple (.className word), (gap ++ word).length) := by
  obtain ⟨c, more, rfl⟩ := List.exists_cons_of_ne_nil filled
  rw [token?.eq_def, if_neg (by decide), if_pos (by decide)]
  simp only [room, List.drop_left, length]
  simp

theorem token_hash (filled : word ≠ []) (length : nameLength (word ++ rest) = word.length) :
    token? '#' (word ++ rest) = some (.simple (.idName word), word.length) := by
  obtain ⟨c, more, rfl⟩ := List.exists_cons_of_ne_nil filled
  rw [token?.eq_def, if_neg (by decide), if_neg (by decide), if_pos (by decide)]
  simp only [length]
  simp

end Words

variable (name : Identifier)

theorem lexes_typeName : Lexes Ends name.1 [.simple (.typeName name)] := by
  obtain ⟨c, more, spelt, _⟩ := identifier_cons name
  obtain ⟨apart, blank, _⟩ := identifier_begins name spelt
  rw [spelt]
  refine lexes_token ⟨blank, fun slash => apart (slash ▸ by decide)⟩ fun rest ends => ?_
  have length := identifierLength_append name ends
  rw [spelt, List.cons_append] at length
  exact token_word (mt List.mem_of_mem_drop apart) length

theorem lexes_className : Lexes Ends ('.' :: name.1) [.simple (.className name)] := by
  refine lexes_token (by decide) fun rest ends => ?_
  exact @token_dot rest name.1 [] (identifier_filled name) (gapLength_solid (identifier_solid name rest))
    (identifierLength_append name ends)

theorem lexes_idName : Lexes Ends ('#' :: name.1) [.simple (.idName name)] := by
  refine lexes_token (by decide) fun rest ends => ?_
  exact token_hash (identifier_filled name) (nameLength_append (identifier_isNameChar name) ends)

/-- The parenthesis that would open arguments does not end a name. -/
theorem Ends.closed {rest more : Text} (ends : Ends rest) : rest ≠ '(' :: more := by
  rintro rfl
  exact absurd (ends '(' rfl) (by decide)

theorem colonToken_name (colons : Nat) (ends : Ends rest) :
    colonToken? colons (name.1 ++ rest) =
      some (.simple (if colons == 2 then .pseudoElement name else .pseudoClass name), name.1.length) := by
  have run : (name.1 ++ rest).takeWhile isNameChar = name.1 := by
    refine takeWhile_append (identifier_isNameChar name) fun c first => ?_
    have stopped := ends c first
    simp only [stops, Bool.and_eq_true, Bool.not_eq_true'] at stopped
    exact stopped.1.1.2
  have length := identifierLength_append name ends
  have gap := gapLength_solid (identifier_solid name rest)
  obtain ⟨c, more, spelt, _⟩ := identifier_cons name
  simp only [colonToken?, run, List.drop_left]
  split
  next => exact absurd rfl ends.closed
  next =>
    rw [spelt, List.cons_append] at length gap ⊢
    simp [gap, length]

section Functions

variable {word : Text} (letters : ∀ c ∈ word, isNameChar c = true)

include letters

theorem takeWhile_open (rest : Text) : (word ++ '(' :: rest).takeWhile isNameChar = word := by
  refine takeWhile_append letters fun c first => ?_
  obtain rfl := Option.some.inj first
  decide

/-- A name before a parenthesis is that of a function. -/
theorem colonToken_open (filled : word ≠ []) (colons : Nat) (rest : Text) :
    colonToken? colons (word ++ '(' :: rest) =
      match listFunction? colons word with
      | some function => some (.enter function, word.length + 1)
      | none =>
        (argumentsLength? 0 true rest).map fun length =>
          (.simple (if colons == 2 then .elementFunction ((word ++ '(' :: rest).take (word.length + 1 + length))
            else .pseudoFunction ((word ++ '(' :: rest).take (word.length + 1 + length))), word.length + 1 + length) := by
  have run := takeWhile_open letters rest
  obtain ⟨c, more, rfl⟩ := List.exists_cons_of_ne_nil filled
  cases listed : listFunction? colons (c :: more) with
  | some function => simp only [colonToken?, run, List.drop_left, listed]
  | none => simp only [colonToken?, run, List.drop_left, listed]

theorem colonToken_list (filled : word ≠ []) {colons : Nat} {function : ListFunction}
    (listed : listFunction? colons word = some function) (rest : Text) :
    colonToken? colons (word ++ '(' :: rest) = some (.enter function, word.length + 1) := by
  rw [colonToken_open letters filled, listed]

theorem colonToken_arguments (filled : word ≠ []) {colons length : Nat} (free : listFunction? colons word = none)
    (closed : argumentsLength? 0 true rest = some length) :
    let content := (word ++ '(' :: rest).take (word.length + 1 + length)
    colonToken? colons (word ++ '(' :: rest) =
      some (.simple (if colons == 2 then .elementFunction content else .pseudoFunction content),
        word.length + 1 + length) := by
  rw [colonToken_open letters filled, free, closed]
  rfl

end Functions

def Colons (s : Text) : Prop := s = [':'] ∨ s = [':', ':']

theorem token_single_colon (other : rest.head? ≠ some ':') : token? ':' rest = colonToken? 1 rest := by
  unfold token?
  rw [if_pos (show (':' == ':') = true from rfl)]
  split
  next more => exact absurd rfl other
  next => rfl

theorem token_double_colon (rest : Text) :
    token? ':' (':' :: rest) = (colonToken? 2 rest).map fun (token, length) => (token, length + 1) := rfl

/-- One or two colons begin a token with what follows them. -/
theorem token_colons {colons : Text} (two : Colons colons) (other : rest.head? ≠ some ':')
    (read : colonToken? colons.length rest = some (token, extra)) :
    ∃ more, colons = ':' :: more ∧ token? ':' (more ++ rest) = some (token, more.length + extra) := by
  rcases two with rfl | rfl
  · exact ⟨[], rfl, by rw [List.nil_append, token_single_colon other, List.length_nil, Nat.zero_add]; exact read⟩
  · have inner : colonToken? 2 rest = some (token, extra) := read
    exact ⟨[':'], rfl, by rw [List.singleton_append, token_double_colon, inner, Nat.add_comm]; rfl⟩

theorem identifier_no_colon (s : Text) : (name.1 ++ s).head? ≠ some ':' := by
  obtain ⟨c, letters, spelt, _⟩ := identifier_cons name
  intro first
  rw [spelt] at first
  obtain rfl := Option.some.inj first
  exact (identifier_begins name spelt).1 (by decide)

theorem lexes_colons {follows : Text → Prop} {colons s : Text} (two : Colons colons)
    (read : ∀ rest, follows rest →
      colonToken? colons.length (name.1 ++ (s ++ rest)) = some (token, name.1.length + s.length)) :
    Lexes follows (colons ++ (name.1 ++ s)) [token] := by
  obtain ⟨more, rfl⟩ : ∃ more, colons = ':' :: more := by rcases two with rfl | rfl <;> exact ⟨_, rfl⟩
  have lexes : Lexes follows (':' :: (more ++ (name.1 ++ s))) [token] := by
    refine lexes_token (by decide) fun rest follow => ?_
    obtain ⟨_, same, taken⟩ := token_colons two (identifier_no_colon name _) (read rest follow)
    obtain rfl := (List.cons.inj same).2
    rw [List.append_assoc, List.append_assoc, taken, List.length_append, List.length_append]
  exact lexes

theorem lexes_pseudoClass : Lexes Ends (':' :: name.1) [.simple (.pseudoClass name)] := by
  have lexes := @lexes_colons (.simple (.pseudoClass name)) name Ends [':'] [] (Or.inl rfl) fun rest ends =>
    colonToken_name name 1 ends
  rwa [List.append_nil] at lexes

theorem lexes_pseudoElement : Lexes Ends (':' :: ':' :: name.1) [.simple (.pseudoElement name)] := by
  have lexes := @lexes_colons (.simple (.pseudoElement name)) name Ends [':', ':'] [] (Or.inr rfl) fun rest ends =>
    colonToken_name name 2 ends
  rwa [List.append_nil] at lexes

theorem lexes_listFunction {function : ListFunction} (named : Names function name) :
    Lexes (fun _ => True) (colonsOf function ++ (name.1 ++ ['('])) [.enter function] := by
  refine lexes_colons name (by cases function <;> simp [Colons, colonsOf]) fun rest _ => ?_
  exact colonToken_list (identifier_isNameChar name) (identifier_filled name) (listFunction_listed name named) rest

section Contents

private theorem no_comment {s rest : Text} (bare : holds ['/', '*'] ('/' :: s) = false) :
    commentRest? (s ++ ')' :: rest) = none := by
  cases s with
  | nil => rfl
  | cons d s =>
    have other : d ≠ '*' := by
      rintro rfl
      cases bare
    rw [List.cons_append]
    unfold commentRest?
    split
    next same => exact absurd (List.cons.inj same).1 other
    next => rfl

theorem argumentsLength_closed {s : Text} {depth : Nat} {fresh : Bool} (balance : balanceFrom '(' ')' depth s = some 0)
    (bare : holds ['/', '*'] s = false) (rest : Text) :
    argumentsLength? depth fresh (s ++ ')' :: rest) = some (s.length + 1) := by
  induction s generalizing depth fresh with
  | nil =>
    obtain rfl := Option.some.inj balance
    simp [argumentsLength?]
  | cons c s ih =>
    obtain ⟨middle, first, later⟩ := Option.bind_eq_some_iff.mp balance
    have inner : holds ['/', '*'] s = false := (Bool.or_eq_false_iff.mp bare).2
    -- Whether a comment could begin here never matters, since none does.
    have onward := fun fresh => @ih middle fresh later inner
    have comment : (if (fresh && c == '/') = true then commentRest? (s ++ ')' :: rest) else none) = none := by
      by_cases slash : c = '/'
      · subst slash
        simp [no_comment bare]
      · simp [slash]
    unfold balanceStep at first
    rw [List.cons_append, argumentsLength?.eq_def]
    by_cases opens : c = '('
    · obtain rfl : depth + 1 = middle := by simpa [opens] using first
      simp [opens, onward]
    by_cases closes : c = ')'
    · cases depth with
      | zero => simp [closes] at first
      | succ depth =>
        obtain rfl : depth = middle := by simpa [closes] using first
        simp [closes, onward]
    obtain rfl : depth = middle := by simpa [opens, closes] using first
    simp only [comment]
    simp [opens, closes, onward]

/-- Text that leaves an attribute selector open. -/
def Inert (s : Text) : Prop := ∀ rest, attributeLength? (s ++ rest) = (attributeLength? rest).map (· + s.length)

theorem Inert.append {s t : Text} (first : Inert s) (second : Inert t) : Inert (s ++ t) := by
  intro rest
  rw [List.append_assoc, first, second, Option.map_map]
  simp [Function.comp_def, Nat.add_assoc, Nat.add_comm t.length]

theorem inert_bare {s : Text} (bare : ∀ c ∈ s, c ∉ [']', '"', '\'']) : Inert s := by
  intro rest
  induction s with
  | nil => simp
  | cons c s ih =>
    obtain ⟨own, others⟩ := List.forall_mem_cons.mp bare
    simp only [List.mem_cons, List.not_mem_nil, or_false, not_or] at own
    rw [List.cons_append, attributeLength?.eq_def]
    simp [own, ih others, Function.comp_def, Nat.add_assoc]

theorem stringLength_closed {quote : Char} {s : Text} (bare : ∀ c ∈ s, c ≠ quote ∧ c ≠ '\\' ∧ c ≠ '\n') (rest : Text)
    (own : quote ≠ '\\') : stringLength? quote (s ++ quote :: rest) = some (s.length + 1) := by
  induction s with
  | nil => simp [stringLength?, own]
  | cons c s ih =>
    obtain ⟨⟨other, escape, line⟩, others⟩ := List.forall_mem_cons.mp bare
    simp [stringLength?, other, escape, line, ih others]

theorem inert_quoted (quoted : Quoted) : Inert (quoted.quote :: quoted.text ++ [quoted.quote]) := by
  obtain ⟨quote, text, quotes, bare⟩ := quoted
  intro rest
  have own : quote ≠ '\\' := by rcases quotes with rfl | rfl <;> decide
  have closed := stringLength_closed bare rest own
  have bracket : quote ≠ ']' := by rcases quotes with rfl | rfl <;> decide
  have dropped : (text ++ quote :: rest).drop (text.length + 1) = rest := by
    rw [← List.drop_drop, List.drop_left]
    rfl
  rw [List.append_assoc, List.cons_append, List.singleton_append, attributeLength?.eq_def]
  simp [quotes, bracket, closed, dropped, Nat.add_assoc]

theorem inert_name (name : Identifier) : Inert name.1 := by
  refine inert_bare fun c member listed => ?_
  have silent : ∀ c ∈ [']', '"', '\''], isNameChar c = false := by decide
  exact absurd (identifier_isNameChar name c member) (by simp [silent c listed])

theorem inert_gap (gap : Gap) : Inert gap.1 := by
  refine inert_bare fun c member listed => ?_
  have silent : ∀ c ∈ [']', '"', '\''], isBlank c = false := by decide
  exact absurd (gap.2 c member).1 (by simp [silent c listed])

theorem inert_test (test : Test) : Inert test.text := by
  obtain ⟨before, comparison, after, value⟩ := test
  have compares : Inert comparison.text := inert_bare (by cases comparison <;> decide)
  have valued : Inert value.text := by
    cases value with
    | word name => exact inert_name name
    | quoted inner => exact inert_quoted inner
  exact (((inert_gap before).append compares).append (inert_gap after)).append valued

theorem token_bracket {content : Text} (filled : content ≠ []) (inert : Inert content) (rest : Text) :
    token? '[' (content ++ ']' :: rest) = some (.simple (.attribute content), content.length + 1) := by
  have closed : attributeLength? (']' :: rest) = some 1 := by simp [attributeLength?]
  have length := inert (']' :: rest)
  rw [closed] at length
  simp [token?, length, filled, Nat.add_comm 1]

theorem lexes_bracket {content : Text} (filled : content ≠ []) (inert : Inert content) :
    Lexes (fun _ => True) ('[' :: (content ++ [']'])) [.simple (.attribute content)] := by
  refine lexes_token (by decide) fun rest _ => ?_
  rw [List.append_assoc, List.singleton_append, token_bracket filled inert, List.length_append]
  rfl

theorem lexes_attribute (test : Option Test) :
    ∃ content, Lexes (fun _ => True) (Piece.bracket name test).text [.simple (.attribute content)] := by
  have inert : Inert (name.1 ++ (test.map Test.text).getD []) := by
    cases test with
    | none => exact (inert_name name).append (inert_bare (by simp))
    | some test => exact (inert_name name).append (inert_test test)
  obtain ⟨c, more, spelt, _⟩ := identifier_cons name
  exact ⟨_, lexes_bracket (by simp [spelt]) inert⟩

theorem lexes_arguments {colons : Text} (two : Colons colons) (name : FreeName) (arguments : Arguments) :
    ∃ content, Lexes (fun _ => True) (colons ++ (name.1.1 ++ ('(' :: arguments.text ++ [')'])))
      [.simple (if colons.length == 2 then .elementFunction content else .pseudoFunction content)] := by
  refine ⟨name.1.1 ++ ('(' :: arguments.text ++ [')']), lexes_colons name.1 two fun rest _ => ?_⟩
  have closed := @argumentsLength_closed _ _ true arguments.balanced arguments.bare rest
  have token := colonToken_arguments (identifier_isNameChar name.1) (identifier_filled name.1)
    (listFunction_free name colons.length) closed
  have whole : name.1.1 ++ '(' :: (arguments.text ++ ')' :: rest) =
      (name.1.1 ++ ('(' :: arguments.text ++ [')'])) ++ rest := by simp
  have length : name.1.1.length + 1 + (arguments.text.length + 1) =
      (name.1.1 ++ ('(' :: arguments.text ++ [')'])).length := by
    simp only [List.length_append, List.length_cons, List.length_nil]
    omega
  simp only [length, whole, List.take_left] at token
  rw [← List.append_assoc, token, List.length_append]

end Contents

end Tokens

end CascadeLens.Proofs.SelectorLexing
