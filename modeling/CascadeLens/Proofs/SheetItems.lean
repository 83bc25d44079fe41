import CascadeLens.Proofs.SheetSteps

/-! How a sheet reader moves on in the middle of an item. Plain characters, escapes, strings and parentheses with all
that they enclose are kept as they stand. -/

namespace CascadeLens.Proofs.SheetItems
open Text TextShape SheetWriting SheetSteps

/-- The reader behind text of an item, with what the item keeps of it. -/
def past (reader : SheetReader) (s kept : Text) (parens : Nat) : SheetReader :=
  { reader with here := behind reader.here s, level := keeping reader.level kept parens }

/-- The reader behind text that an item keeps. -/
def onward (reader : SheetReader) (s : Text) : SheetReader :=
  { reader with here := behind reader.here s, level := keeping reader.level s reader.level.parens }

/-- The reader behind text that an item keeps, in the given mode. -/
def resumed (reader : SheetReader) (mode : ReadMode) (s : Text) (parens : Nat) : SheetReader :=
  { past reader s s parens with mode }

/-- In the middle of an item. -/
structure Begun (reader : SheetReader) : Prop where
  plain : reader.mode = .plain
  read : reader.level.isPassed = false
  begun : reader.level.itemStart ≠ none

section Items

variable {lineComments : Bool} {reader : SheetReader} {s t kept more rest : Text} {c : Char} {parens depth : Nat}

theorem onward_append (reader : SheetReader) (s t : Text) : onward (onward reader s) t = onward reader (s ++ t) := by
  simp [onward, keeping, behind_append]

theorem onward_held (reader : SheetReader) (s t : Text) : onward (held reader s) t = held reader (s ++ t) := by
  simp [onward, held, keeping, holding, behind_append]

theorem past_past (reader : SheetReader) (s kept t more : Text) (parens depth : Nat) :
    past (past reader s kept parens) t more depth = past reader (s ++ t) (kept ++ more) depth := by
  simp [past, keeping, behind_append]

theorem resumed_resumed (reader : SheetReader) (mode mode' : ReadMode) (s t : Text) (parens depth : Nat) :
    resumed (resumed reader mode s parens) mode' t depth = resumed reader mode' (s ++ t) depth := by
  simp [resumed, past, keeping, behind_append]

theorem resumed_nil (plain : reader.mode = .plain) : resumed reader .plain [] reader.level.parens = reader := by
  rw [resumed, past, keeping, ← plain]
  rfl

theorem past_onward (reader : SheetReader) (s t more : Text) (depth : Nat) :
    past (onward reader s) t more depth = past reader (s ++ t) (s ++ more) depth := past_past reader s s t more _ depth

theorem Begun.past (begun : Begun reader) (s kept : Text) (parens : Nat) : Begun (past reader s kept parens) :=
  ⟨begun.plain, begun.read, begun.begun⟩

theorem Begun.onward (begun : Begun reader) (s : Text) : Begun (onward reader s) := ⟨begun.plain, begun.read, begun.begun⟩

theorem Begun.noting (begun : Begun reader) (c : Char) : noting reader c = reader := by
  obtain ⟨start, first⟩ := Option.ne_none_iff_exists'.mp begun.begun
  simp [SheetSteps.noting, Level.begin, first]

theorem run_bare (begun : Begun reader) (bare : ∀ c ∈ s, c ∉ structural) (rest : Text) :
    reader.run lineComments (s ++ rest) = (onward reader s).run lineComments rest := by
  obtain ⟨start, first⟩ := Option.ne_none_iff_exists'.mp begun.begun
  refine run_kept begun.plain begun.read first (fun c member => ?_) (fun last => ?_) ?_
  · exact fun inside => bare c member (List.mem_cons_of_mem _ (List.mem_cons_of_mem _ (List.mem_cons_of_mem _ inside)))
  · exact bare '#' (List.mem_of_getLast? last) (by decide)
  · refine balanceFrom_flat (fun c member => ⟨?_, ?_⟩) _ <;> rintro rfl <;> exact bare _ member (by decide)

/-- A backslash is kept with the character behind it, whatever that is. -/
theorem run_escape (begun : Begun reader) (c : Char) (rest : Text) :
    reader.run lineComments ('\\' :: c :: rest) = (onward reader ['\\', c]).run lineComments rest := by
  obtain ⟨start, first⟩ := Option.ne_none_iff_exists'.mp begun.begun
  have opening : reader.step lineComments '\\' (c :: rest).head? =
      .ok { onward reader ['\\'] with mode := .escape } := by
    simp [SheetReader.step, SheetReader.read, begun.plain, SheetReader.readPlain, Level.begin, first, isQuote, Except.map,
      onward, keeping, Level.keep]
  have closing : SheetReader.step lineComments { onward reader ['\\'] with mode := .escape } c rest.head? =
      .ok (onward reader ['\\', c]) := by
    simp [SheetReader.step, SheetReader.read, Except.map, onward, keeping, Level.keep, begun.plain]
  rw [run_step opening, run_step closing]

/-- A character that is taken in, and begins no interpolation. -/
theorem run_taken_in (begun : Begun reader) (bare : c ∉ masking) (calm : c = '#' → rest.head? ≠ some '\x7b')
    (taken : reader.takeIn c = .ok { reader with level := keeping reader.level [c] parens }) :
    reader.run lineComments (c :: rest) = (past reader [c] [c] parens).run lineComments rest :=
  run_taken begun.plain begun.read bare calm (begun.noting c) taken

theorem run_opener (begun : Begun reader) (rest : Text) :
    reader.run lineComments ('(' :: rest) = (past reader ['('] ['('] (reader.level.parens + 1)).run lineComments rest :=
  run_taken_in begun (by decide) (by simp) rfl

theorem run_closer (begun : Begun reader) (rest : Text) :
    reader.run lineComments (')' :: rest) = (past reader [')'] [')'] (reader.level.parens - 1)).run lineComments rest :=
  run_taken_in begun (by decide) (by simp) rfl

/-- A hash is kept unless it begins an interpolation. -/
theorem run_hash (begun : Begun reader) (calm : rest.head? ≠ some '\x7b') :
    reader.run lineComments ('#' :: rest) = (onward reader ['#']).run lineComments rest := by
  refine run_taken_in begun (by decide) (fun _ => calm) ?_
  simp [SheetReader.takeIn, keeping, Level.keep]

/-- A slash is kept unless it begins a comment. -/
theorem run_slash (begun : Begun reader) (calm : rest.head? ≠ some '*' ∧ rest.head? ≠ some '/') :
    reader.run lineComments ('/' :: rest) = (onward reader ['/']).run lineComments rest := by
  obtain ⟨start, first⟩ := Option.ne_none_iff_exists'.mp begun.begun
  have read := begun.read
  have taken : reader.readPlain lineComments '/' rest.head? = .ok { reader with level := reader.level.keep '/' } := by
    unfold Level.isPassed at read
    simp only [SheetReader.readPlain, Level.begin, first]
    cases kind : reader.level.kind <;> simp_all [isQuote, SheetReader.takeIn]
  refine run_step ?_
  simp [SheetReader.step, SheetReader.read, begun.plain, taken, Except.map, onward, keeping, Level.keep]

end Items

/-- Whether text is kept as it stands, inside of a quote or outside. Its quotes and parentheses have to be closed, and
outside of quotes there may be no brace, no semicolon and nothing that begins a comment or an interpolation. -/
def contained (quote : Option Char) (parens : Nat) : Text → Bool
  | [] => quote.isNone && parens == 0
  | '\\' :: _ :: rest => contained quote parens rest
  | c :: rest =>
    c != '\\' &&
      match quote with
      | some mark => if c == mark then contained none parens rest else c != '\n' && contained quote parens rest
      | none =>
        if isQuote c then contained (some c) parens rest
        else if c == '(' then contained none (parens + 1) rest
        else if c == ')' then parens != 0 && contained none (parens - 1) rest
        else
          !(['\x7b', '\x7d', ';'].contains c)
            && !((c == '/' || c == '#') && rest.head?.all fun next => ['*', '/', '\x7b'].contains next)
            && contained none parens rest

/-- What a reader is in inside and outside of quotes. -/
inductive Quoting : Option Char → ReadMode → Prop
  | bare : Quoting none .plain
  | string (quote : Char) (start : Place) : Quoting (some quote) (.string quote start)

section Contents

variable {lineComments : Bool} {reader : SheetReader} {s rest : Text} {c quote : Char} {start : Place} {parens depth : Nat}

theorem run_string_escape (inside : reader.mode = .string quote start) (c : Char) (rest : Text) :
    reader.run lineComments ('\\' :: c :: rest) = (onward reader ['\\', c]).run lineComments rest := by
  have opening : reader.step lineComments '\\' (c :: rest).head? =
      .ok { onward reader ['\\'] with mode := .stringEscape quote start } := by
    simp [SheetReader.step, SheetReader.read, inside, Except.map, onward, keeping, Level.keep]
  have closing : SheetReader.step lineComments { onward reader ['\\'] with mode := .stringEscape quote start } c rest.head? =
      .ok (onward reader ['\\', c]) := by
    simp [SheetReader.step, SheetReader.read, Except.map, onward, keeping, Level.keep, inside]
  rw [run_step opening, run_step closing]

theorem run_string_char (inside : reader.mode = .string quote start) (plain : c ≠ '\\') (other : c ≠ quote)
    (line : c ≠ '\n') (rest : Text) :
    reader.run lineComments (c :: rest) = (onward reader [c]).run lineComments rest := by
  refine run_step ?_
  simp [SheetReader.step, SheetReader.read, inside, plain, other, line, Except.map, onward, keeping, Level.keep]

theorem run_string_end (inside : reader.mode = .string quote start) (plain : quote ≠ '\\') (rest : Text) :
    reader.run lineComments (quote :: rest) =
      (resumed reader .plain [quote] reader.level.parens).run lineComments rest := by
  refine run_step ?_
  simp [SheetReader.step, SheetReader.read, inside, plain, Except.map, resumed, past, keeping, Level.keep]

theorem run_quote (begun : Begun reader) (quote : isQuote c = true) (rest : Text) :
    reader.run lineComments (c :: rest) =
      (resumed reader (.string c reader.here) [c] reader.level.parens).run lineComments rest := by
  obtain ⟨start, first⟩ := Option.ne_none_iff_exists'.mp begun.begun
  have slash : (c == '/') = false := by
    rcases (by simpa [isQuote] using quote : c = '"' ∨ c = '\'') with rfl | rfl <;> rfl
  refine run_step ?_
  simp [SheetReader.step, SheetReader.read, begun.plain, SheetReader.readPlain, Level.begin, first, quote, slash,
    Except.map, resumed, past, keeping, Level.keep]

/-- A character of which nothing else is made keeps its place in an item. -/
theorem run_plain (begun : Begun reader) (plain : c ∉ ['"', '\'', '\\', '(', ')', '\x7b', '\x7d', ';'])
    (slash : c = '/' → rest.head? ≠ some '*' ∧ rest.head? ≠ some '/') (hash : c = '#' → rest.head? ≠ some '\x7b') :
    reader.run lineComments (c :: rest) = (onward reader [c]).run lineComments rest := by
  by_cases isSlash : c = '/'
  · subst isSlash
    exact run_slash begun (slash rfl)
  by_cases isHash : c = '#'
  · subst isHash
    exact run_hash begun (hash rfl)
  have bare : ∀ d ∈ [c], d ∉ structural := by simp_all [structural, masking]
  exact run_bare begun bare rest

/-- A character that begins nothing with the one behind it keeps its place whatever text comes later. -/
theorem run_calm {tail : Text} (begun : Begun reader) (plain : c ∉ ['"', '\'', '\\', '(', ')', '\x7b', '\x7d', ';'])
    (calm : (!((c == '/' || c == '#') && tail.head?.all fun next => ['*', '/', '\x7b'].contains next)) = true)
    (rest : Text) :
    reader.run lineComments (c :: (tail ++ rest)) = (onward reader [c]).run lineComments (tail ++ rest) := by
  have ahead (special : c = '/' ∨ c = '#') : ∃ next more, tail = next :: more ∧ next ∉ ['*', '/', '\x7b'] := by
    cases tail with
    | nil => rcases special with rfl | rfl <;> simp at calm
    | cons next more => exact ⟨next, more, rfl, by rcases special with rfl | rfl <;> simpa using calm⟩
  refine run_plain begun plain (fun same => ?_) fun same => ?_
  · obtain ⟨next, more, rfl, other⟩ := ahead (Or.inl same)
    simp_all
  · obtain ⟨next, more, rfl, other⟩ := ahead (Or.inr same)
    simp_all

theorem run_joined {front back : Text} {mode : ReadMode} {middle : Nat}
    (stepped : reader.run lineComments (front ++ (back ++ rest)) =
      (resumed reader mode front middle).run lineComments (back ++ rest))
    (later : (resumed reader mode front middle).run lineComments (back ++ rest) =
      (resumed (resumed reader mode front middle) .plain back depth).run lineComments rest) :
    reader.run lineComments ((front ++ back) ++ rest) =
      (resumed reader .plain (front ++ back) depth).run lineComments rest := by
  rw [List.append_assoc, stepped, later, resumed_resumed]

theorem run_contained {quote : Option Char} (quoting : Quoting quote reader.mode) (read : reader.level.isPassed = false)
    (begun : reader.level.itemStart ≠ none) (kept : contained quote parens s = true)
    (deep : reader.level.parens = depth + parens) (rest : Text) :
    reader.run lineComments (s ++ rest) = (resumed reader .plain s depth).run lineComments rest := by
  -- The reader is in the quote that is open in front of `s`, and as deep as the parentheses that `s` has yet to close.
  fun_induction contained quote parens s generalizing reader with
  | case1 quote parens =>
    obtain ⟨rfl, rfl⟩ : quote = none ∧ parens = 0 := by simpa using kept
    generalize same : reader.mode = mode at quoting
    cases quoting
    rw [← show reader.level.parens = depth from deep, resumed_nil same]
    rfl
  | case2 quote parens c tail ih =>
    have stepped : reader.run lineComments ('\\' :: c :: (tail ++ rest)) =
        (onward reader ['\\', c]).run lineComments (tail ++ rest) := by
      generalize same : reader.mode = mode at quoting
      cases quoting with
      | bare => exact run_escape ⟨same, read, begun⟩ c _
      | string quote start => exact run_string_escape same c _
    exact @run_joined _ reader rest depth ['\\', c] tail _ _ stepped (@ih (onward reader ['\\', c]) quoting read begun kept deep)
  | case3 quote parens c tail pair ended stays opened deeper closed =>
    simp only [Bool.and_eq_true, bne_iff_ne, ne_eq] at kept
    obtain ⟨plain, kept⟩ := kept
    generalize mode : reader.mode = now at quoting
    cases quoting with
    | string quote start =>
      dsimp only at kept
      split at kept
      next ends =>
        obtain rfl : c = quote := by simpa using ends
        exact @run_joined _ reader rest depth [c] tail _ _ (run_string_end mode plain _)
          (@ended (resumed reader .plain [c] reader.level.parens) .bare read begun kept deep)
      next other =>
        obtain ⟨line, kept⟩ := by simpa using kept
        have inside : Quoting (some quote) (onward reader [c]).mode := mode ▸ .string quote start
        exact @run_joined _ reader rest depth [c] tail _ _ (run_string_char mode plain (by simpa using other) line _)
          (@stays (onward reader [c]) inside read begun kept deep)
    | bare =>
      have item : Begun reader := ⟨mode, read, begun⟩
      dsimp only at kept
      split at kept
      next quote =>
        exact @run_joined _ reader rest depth [c] tail _ _ (run_quote item quote _)
          (@opened (resumed reader (.string c reader.here) [c] reader.level.parens) (.string c _) read begun kept deep)
      split at kept
      next opener =>
        obtain rfl : c = '(' := by simpa using opener
        exact @run_joined _ reader rest depth ['('] tail _ _ (run_opener item _)
          (@deeper (past reader ['('] ['('] (reader.level.parens + 1)) (mode ▸ .bare) read begun kept
            (congrArg (· + 1) deep))
      split at kept
      next closer =>
        obtain rfl : c = ')' := by simpa using closer
        obtain ⟨filled, kept⟩ := by simpa using kept
        have shallower : reader.level.parens - 1 = depth + (parens - 1) := by omega
        exact @run_joined _ reader rest depth [')'] tail _ _ (run_closer item _)
          (@closed (past reader [')'] [')'] (reader.level.parens - 1)) (mode ▸ .bare) read begun kept shallower)
      next quote opener closer =>
        simp only [Bool.and_eq_true] at kept
        obtain ⟨⟨brace, calm⟩, kept⟩ := kept
        refine @run_joined _ reader rest depth [c] tail _ _ (run_calm item ?_ calm rest)
          (@stays (onward reader [c]) (mode ▸ .bare) read begun kept deep)
        simp_all [isQuote]

end Contents

end CascadeLens.Proofs.SheetItems
