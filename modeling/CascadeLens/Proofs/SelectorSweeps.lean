import CascadeLens.Proofs.SpacedTokens

/-! Selectors with a space in the place of every comment between their tokens. With single spaces for runs of blanks,
and none at the ends, they are cut into tokens that count for the same. -/

namespace CascadeLens.Proofs.SelectorSweeps
open Text Selector TextShape SelectorNames SelectorLexing SelectorEscapes SelectorLexemes SelectorSpelling SelectorReading
open SelectorSeams SelectorRereading SelectorBranches SpacedText SpacedTokens

/-- Blanks and comments, and what they leave with a space for each comment. -/
inductive Swept : Text → Text → Prop
  | nil : Swept [] []
  | blank {c : Char} {gap left : Text} (white : isBlank c = true ∧ isAscii c = true) (later : Swept gap left) :
    Swept (c :: gap) (c :: left)
  | comment {body gap left : Text} (closed : commentRest? body = some body.length) (later : Swept gap left) :
    Swept ('/' :: (body ++ gap)) (' ' :: left)

section Gaps

variable {s gap left more kept rest : Text}

theorem Swept.append (first : Swept gap left) (second : Swept more kept) : Swept (gap ++ more) (left ++ kept) := by
  induction first with
  | nil => exact second
  | blank white later ih => exact .blank white ih
  | comment closed later ih =>
    rw [List.cons_append, List.append_assoc]
    exact .comment closed ih

theorem Swept.airy (swept : Swept gap left) : Airy left := by
  induction swept with
  | nil => exact airy_nil
  | blank white later ih => exact List.forall_mem_cons.mpr ⟨white, ih⟩
  | comment closed later ih => exact List.forall_mem_cons.mpr ⟨by decide, ih⟩

theorem Swept.blanks (swept : Swept gap left) : ∀ c ∈ left, isBlank c = true := fun c member => (swept.airy c member).1

theorem swept_airy (room : Airy s) : Swept s s := by
  induction s with
  | nil => exact .nil
  | cons c s ih =>
    obtain ⟨white, others⟩ := List.forall_mem_cons.mp room
    exact .blank white (ih others)

/-- What stands behind a comment does not count for its length. -/
theorem commentRest_take {length : Nat} (found : commentRest? s = some length) :
    commentRest? (s.take length) = some (s.take length).length := by
  have inner : ∀ {s : Text} {length : Nat}, commentLength? s = some length →
      commentLength? (s.take length) = some length ∧ (s.take length).length = length := by
    intro s length found
    fun_induction commentLength? s generalizing length with
    | case1 => cases found
    | case2 rest =>
      obtain rfl := Option.some.inj found
      exact ⟨rfl, rfl⟩
    | case3 c rest apart ih =>
      obtain ⟨inner, later, rfl⟩ := Option.map_eq_some_iff.mp found
      obtain ⟨same, size⟩ := ih later
      have still : ∀ more, c = '*' → rest.take inner = '/' :: more → False := by
        intro more star slash
        cases inner with
        | zero => cases slash
        | succ inner =>
          cases rest with
          | nil => cases slash
          | cons d rest =>
            obtain ⟨rfl, -⟩ := List.cons.inj slash
            exact apart rest star rfl
      rw [List.take_succ_cons, commentLength?.eq_3 _ _ still, same, List.length_cons, size]
      exact ⟨rfl, rfl⟩
  unfold commentRest? at found
  split at found
  next more =>
    obtain ⟨length, later, rfl⟩ := Option.map_eq_some_iff.mp found
    obtain ⟨same, size⟩ := inner later
    rw [List.take_succ_cons, commentRest?, same, List.length_cons, size]
    rfl
  next => cases found

/-- A comment ends with the first marks that end one. -/
theorem comment_closed {body : Text} (closed : commentRest? body = some body.length) :
    ∃ inner, body = '*' :: (inner ++ ['*', '/']) ∧ ¬ ['*', '/'] <:+: inner := by
  have inner : ∀ {s : Text} {length : Nat}, commentLength? s = some length →
      ∃ inner, s.take length = inner ++ ['*', '/'] ∧ ¬ ['*', '/'] <:+: inner := by
    intro s length found
    fun_induction commentLength? s generalizing length with
    | case1 => cases found
    | case2 rest =>
      obtain rfl := Option.some.inj found
      exact ⟨[], rfl, by decide⟩
    | case3 c rest apart ih =>
      obtain ⟨length, later, rfl⟩ := Option.map_eq_some_iff.mp found
      obtain ⟨inner, whole, unended⟩ := ih later
      refine ⟨c :: inner, by rw [List.take_succ_cons, whole]; rfl, fun ended => ?_⟩
      rcases List.infix_cons_iff.mp ended with ⟨more, first⟩ | inside
      · obtain ⟨rfl, slash⟩ := List.cons.inj first
        rw [← slash] at whole
        have begun : rest = '/' :: (more ++ ['*', '/'] ++ rest.drop length) := by
          conv_lhs => rw [← List.take_append_drop length rest, whole]
          rfl
        exact apart _ rfl begun
      · exact unended inside
  unfold commentRest? at closed
  split at closed
  next rest =>
    obtain ⟨length, found, size⟩ := Option.map_eq_some_iff.mp closed
    obtain rfl : length = rest.length := by simpa using size
    obtain ⟨inner, whole, unended⟩ := inner found
    rw [List.take_length] at whole
    exact ⟨inner, congrArg _ whole, unended⟩
  next => cases closed

theorem swept_of_gap (ascii : ∀ c ∈ s, isBlank c = true → isAscii c = true) : ∃ left, Swept (s.take (gapLength s)) left := by
  fun_induction gapLength s with
  | case1 => exact ⟨[], .nil⟩
  | case2 c rest white blanks ih =>
    rw [Bool.and_eq_true] at white
    obtain ⟨left, swept⟩ := ih fun d member => ascii d (List.mem_cons_of_mem c (List.mem_of_mem_drop member))
    have run : rest.take blanks = rest.takeWhile isBlank := (List.prefix_iff_eq_take.mp (List.takeWhile_prefix _)).symm
    have room : Airy (rest.take blanks) := by
      intro d member
      have blank := List.all_eq_true.mp List.all_takeWhile d (run ▸ member)
      exact ⟨blank, ascii d (List.mem_cons_of_mem c (List.mem_of_mem_take member)) blank⟩
    rw [Nat.add_assoc, Nat.add_comm, List.take_succ_cons, List.take_add]
    exact ⟨_, .blank white ((swept_airy room).append swept)⟩
  | case3 c rest other length comment ih =>
    split at comment
    next slash =>
      obtain rfl : c = '/' := by simpa using slash
      obtain ⟨left, swept⟩ := ih fun d member => ascii d (List.mem_cons_of_mem _ (List.mem_of_mem_drop member))
      rw [Nat.add_right_comm, List.take_succ_cons, List.take_add]
      exact ⟨_, .comment (commentRest_take comment) swept⟩
    next => cases comment
  | case4 => exact ⟨[], .nil⟩

theorem Swept.length (swept : Swept gap left) (solid : Solid rest) : gapLength (gap ++ rest) = gap.length := by
  induction swept with
  | nil => exact gapLength_solid solid
  | @blank c gap left white later ih =>
    have ascii : ∀ d, (gap ++ rest).head? = some d → isBlank d = true → isAscii d = true := by
      intro d first blank
      cases later with
      | nil => exact absurd (blank.symm.trans (solid d first).1) (by decide)
      | blank white => exact Option.some.inj first ▸ white.2
      | comment => exact Option.some.inj first ▸ by decide
    rw [List.cons_append, gapLength_blanks white, Nat.add_assoc, ← gapLength_run ascii, ih, List.length_cons, Nat.add_comm]
  | @comment body gap left closed later ih =>
    obtain ⟨-, same⟩ := commentRest_some closed (gap ++ rest)
    rw [List.cons_append, List.append_assoc, gapLength_comment same, List.drop_left, ih, List.length_cons, List.length_append]
    omega

end Gaps

/-- The text of a token without what stands in front of it. -/
def written (spelt : Spelt) : Text := spelt.2.drop (gapLength spelt.2)

/-- A text with its tokens, and what is left of it with a space for each comment between them. -/
inductive Sweep : Text → List Spelt → Text → Prop
  | done {gap left : Text} (room : Swept gap left) : Sweep gap [] left
  | more {gap left text rest item : Text} {token : Token} {row : List Spelt} (room : Swept gap left)
      (own : Lexeme rest text token) (later : Sweep rest row item) :
    Sweep (gap ++ (text ++ rest)) ((token, gap ++ text) :: row) (left ++ (text ++ item))

section Sweeps

variable {s t gap left rest text item name : Text} {token next : Token} {row : List Spelt} {c : Char} {extra : Nat}

/-- Nothing that is left out stands where a token begins. -/
theorem token_solid (none : gapLength (c :: rest) = 0) (ascii : isBlank c = true → isAscii c = true)
    (read : token? c rest = some (token, extra)) (t : Text) : Solid (c :: t) := by
  intro d first
  obtain rfl := Option.some.inj first
  constructor
  · by_contra white
    have white : isBlank c = true := by simpa using white
    rw [gapLength_blanks ⟨white, ascii white⟩] at none
    omega
  · rintro rfl
    have other := token_other (c := '/') (by decide) rest
    have silent : identifierLength ('/' :: rest) = 0 := rfl
    rw [other, silent] at read
    cases read

theorem sweep_of_spelt (room : Swept gap left) (ascii : ∀ c ∈ s, isBlank c = true → isAscii c = true)
    (read : speltFrom? gap s = some row) (bare : ∀ spelt ∈ row, Uncommented (written spelt) spelt.1) :
    ∃ item, Sweep (gap ++ s) row item := by
  fun_induction speltFrom? gap s generalizing left row with
  | case1 gap =>
    obtain rfl := Option.some.inj read
    rw [List.append_nil]
    exact ⟨left, .done room⟩
  | case2 gap c rest extra length ih =>
    obtain ⟨more, swept⟩ := swept_of_gap ascii
    rw [length, List.take_succ_cons] at swept
    have inner : ∀ d ∈ rest.drop extra, isBlank d = true → isAscii d = true :=
      fun d member => ascii d (List.mem_cons_of_mem c (List.mem_of_mem_drop member))
    obtain ⟨item, sweep⟩ := ih (room.append swept) inner read bare
    rw [List.append_assoc, List.cons_append, List.take_append_drop] at sweep
    exact ⟨item, sweep⟩
  | case3 => cases read
  | case4 gap c rest none token extra found ih =>
    obtain ⟨others, inner, rfl⟩ := Option.map_eq_some_iff.mp read
    obtain ⟨own, bare⟩ := List.forall_mem_cons.mp bare
    have solid := token_solid none (ascii c List.mem_cons_self) found (rest.take extra)
    rw [written, room.length solid, List.drop_left] at own
    have inside : ∀ d ∈ rest.drop extra, isBlank d = true → isAscii d = true :=
      fun d member => ascii d (List.mem_cons_of_mem c (List.mem_of_mem_drop member))
    obtain ⟨item, sweep⟩ := ih .nil inside inner bare
    have whole : c :: rest = (c :: rest.take extra) ++ rest.drop extra := by rw [List.cons_append, List.take_append_drop]
    rw [whole]
    exact ⟨_, .more room (lexeme_of_token own found) sweep⟩

theorem name_ended (own : Name rest name) : nameLength rest = 0 := by
  induction own with
  | ended none => exact none
  | letter letter more ih => exact ih
  | escaped own more ih => exact ih

/-- Behind a name nothing goes on with it. -/
theorem named_ended (own : Lexeme rest text token) (named : name ∈ nameOf? token) : nameLength rest = 0 := by
  cases own with
  | sign listed =>
    have all : ∀ sign ∈ signs, nameOf? sign.2 = none := by decide
    rw [all _ listed] at named
    cases named
  | typeName word => exact name_ended word.own
  | className room word => exact name_ended word.own
  | idName filled own => exact name_ended own
  | pseudo two room word => exact name_ended word.own
  | column => cases named
  | bracket => cases named
  | function => split at named <;> cases named
  | list => cases named

def isTypeName : Token → Bool
  | .simple (.typeName _) => true
  | _ => false

/-- Only the name of a type begins like a name. -/
theorem lexeme_ends (own : Lexeme rest text token) (other : isTypeName token = false) (t : Text) :
    Ends (text ++ t) := by
  have first : ∀ {c : Char} {more : Text}, stops c = true → Ends (c :: more) :=
    fun stop d found => Option.some.inj found ▸ stop
  have colon : ∀ {colons more : Text}, Colons colons → Ends (colons ++ more) := by
    rintro colons more (rfl | rfl) <;> exact first (by decide)
  cases own with
  | sign listed =>
    have all : ∀ sign ∈ signs, stops sign.1 = true := by decide
    exact first (all _ listed)
  | typeName => cases other
  | column => exact first (by decide)
  | className => exact first (by decide)
  | idName => exact first (by decide)
  | bracket => exact first (by decide)
  | pseudo two =>
    rw [List.append_assoc]
    exact colon two
  | function two =>
    rw [List.append_assoc]
    exact colon two
  | list two =>
    rw [List.append_assoc]
    exact colon two

theorem lexeme_apart (own : Lexeme rest text token) (ended : nameLength (text ++ rest) = 0) : isTypeName token = false := by
  cases own with
  | sign listed =>
    have all : ∀ sign ∈ signs, isTypeName sign.2 = false := by decide
    exact all _ listed
  | typeName word =>
    rw [word.own.length] at ended
    exact absurd (List.length_eq_zero_iff.mp ended) word.filled
  | pseudo => split <;> rfl
  | function => split <;> rfl
  | _ => rfl

/-- A name that takes in what blanks there are does not stand before the name of a type. -/
def Apart (first second : Spelt) : Prop :=
  ∀ name ∈ nameOf? first.1, Hungry name → isTypeName second.1 = false

instance (first second : Spelt) : Decidable (Apart first second) :=
  inferInstanceAs (Decidable (∀ name ∈ nameOf? first.1, _ → _))

theorem trimRight_solid (solid : isBlank c = false) (s t : Text) : trimRight (s ++ c :: t) = s ++ c :: trimRight t := by
  have first : trimRight (c :: t) = c :: trimRight t := by
    rw [trimRight_cons, if_neg fun both => absurd (both.2.symm.trans solid) (by decide)]
  rw [trimRight_append (first ▸ List.cons_ne_nil _ _), first]

theorem Sweep.filled (sweep : Sweep s row item) (ascii : ∀ c ∈ s, isBlank c = true → isAscii c = true) (filled : row ≠ []) :
    trimRight item ≠ [] := by
  cases sweep with
  | done => exact absurd rfl filled
  | @more gap left text rest item token row room own later =>
    obtain ⟨c, more, rfl, solid, -⟩ := own.read fun c member => ascii c (by simp [member])
    rw [List.cons_append, trimRight_solid solid]
    simp

theorem trimRight_blanks (white : ∀ c ∈ s, isBlank c = true) : trimRight s = [] := trimRight_before_blanks white []

theorem ends_nothing (name : Text) : Ends [] ∧ (Hungry name → Ends (trimLeft [])) := ⟨nofun, fun _ => nofun⟩

/-- What stands behind a name is nothing that goes on with it, be it blanks or a token. -/
theorem Sweep.follows (sweep : Sweep rest row item) (ascii : ∀ c ∈ rest, isBlank c = true → isAscii c = true)
    (own : Lexeme rest text token) (named : name ∈ nameOf? token)
    (apart : ∀ next ∈ row.head?, Hungry name → isTypeName next.1 = false) :
    Ends (trimRight item) ∧ (Hungry name → Ends (trimLeft (trimRight item))) := by
  have ended := named_ended own named
  cases sweep with
  | done room =>
    rw [trimRight_blanks room.blanks]
    exact ends_nothing name
  | @more gap left text' rest' item' next row room own' later =>
    obtain ⟨c, more, rfl, solid, -⟩ := own'.read fun c member => ascii c (by simp [member])
    have first : isTypeName next = false → Ends (c :: trimRight (more ++ item')) :=
      fun other d found => lexeme_ends own' other [] d found
    rw [List.cons_append, trimRight_solid solid]
    constructor
    · cases room with
      | nil => exact first (lexeme_apart own' ended)
      | blank white => exact fun d found => Option.some.inj found ▸ blank_stops white
      | comment => exact fun d found => Option.some.inj found ▸ by decide
    · intro hungry
      have begun : ∀ d, (c :: trimRight (more ++ item')).head? = some d → isBlank d = false :=
        fun d found => Option.some.inj found ▸ solid
      rw [trimLeft_behind_blanks room.blanks, trimLeft_eq_self begun]
      exact first (apart _ rfl hungry)

theorem tokens_behind_blanks (white : ∀ c ∈ left, isBlank c = true) (s : Text) :
    tokens? (collapse (left ++ s)) = tokens? (collapse s) := by
  rw [← tokens_collapseFrom, collapseFrom_blanks white, tokens_collapseFrom]

/-- With spaces for comments and for runs of blanks, a selector is cut into tokens that count for the same. -/
theorem Sweep.tokens (sweep : Sweep s row item) (ascii : ∀ c ∈ s, isBlank c = true → isAscii c = true)
    (apart : row.IsChain Apart) (lasting : ∀ spelt ∈ row.getLast?, ∀ name ∈ nameOf? spelt.1, Lasting name) :
    ∃ others, List.Forall₂ SelectorBranches.Similar (row.map Prod.fst) others ∧
      tokens? (collapse (trimRight item)) = some others := by
  induction sweep with
  | done room =>
    refine ⟨[], .nil, ?_⟩
    rw [trimRight_blanks room.blanks]
    simp [collapse, tokens?]
  | @more gap left text rest item token row room own later ih =>
    have inside : ∀ c ∈ text, isBlank c = true → isAscii c = true := fun c member => ascii c (by simp [member])
    have behind : ∀ c ∈ rest, isBlank c = true → isAscii c = true := fun c member => ascii c (by simp [member])
    obtain ⟨next, chain⟩ := List.isChain_cons.mp apart
    have cut : trimRight (left ++ (text ++ item)) = left ++ trimRight (text ++ item) := by
      obtain ⟨c, more, rfl, solid, -⟩ := own.read inside
      have first := trimRight_solid solid [] (more ++ item)
      rw [List.cons_append, trimRight_solid solid]
      exact congrArg (left ++ ·) first.symm
    rw [cut, tokens_behind_blanks room.blanks]
    -- Blanks at the end are trimmed, those behind any other token are left for what follows it.
    cases row with
    | nil =>
      cases later with
      | @done gap' left' white =>
        obtain ⟨short, own', similar⟩ := lexeme_trimmed (own.truncate List.nil_prefix) inside
          (lasting _ rfl)
        have inside' : ∀ c ∈ trimRight text, isBlank c = true → isAscii c = true := by
          obtain ⟨after, whole, -⟩ := trimRight_spec text
          exact fun c member => inside c (whole ▸ List.mem_append_left after member)
        obtain ⟨other, similar', read⟩ := lexeme_onward (t := []) own' inside' fun name _ => ends_nothing name
        refine ⟨[other], .cons (similar.trans similar') .nil, ?_⟩
        rw [trimRight_before_blanks white.blanks]
        rw [List.append_nil] at read
        rw [read]
        simp [collapse, tokens?]
    | cons spelt row =>
      obtain ⟨others, similars, read⟩ := ih behind chain lasting
      have filled := later.filled behind (List.cons_ne_nil spelt row)
      obtain ⟨other, similar, whole⟩ := lexeme_onward (own.truncate List.nil_prefix) inside
        fun name named => later.follows behind own named fun first listed => next first listed name named
      refine ⟨other :: others, .cons similar similars, ?_⟩
      rw [trimRight_append filled, whole, read]
      rfl

end Sweeps

end CascadeLens.Proofs.SelectorSweeps
