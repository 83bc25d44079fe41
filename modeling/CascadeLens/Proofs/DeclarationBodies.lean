import CascadeLens.Proofs.DeclarationQuotes
import CascadeLens.Proofs.SheetSpans
import CascadeLens.Stylesheet.Declaration

/-! The bodies of rules. The declarations of a rule are joined with semicolons and cut apart again there, and
none of them is lost that way unless one before it leaves something open. -/

namespace CascadeLens.Proofs.DeclarationBodies
open Text TextShape NestReading SheetForest SheetSpans DeclarationQuotes

section Cuts

variable {mark : Char → Bool} {nest : Nest} {s t : Text} {c : Char}

theorem ordinary_of_cuts (cuts : nest.cutsAt mark c = true) : ordinary c = true := by
  simp only [Nest.cutsAt, Bool.and_eq_true] at cuts
  exact cuts.2

/-- A mark behind text that leaves nothing open cuts the text in two. -/
theorem topLevelFrom_joined (cuts : Nest.cutsAt {} mark c = true) (closed : nest.read s = {}) (begun t : Text) :
    topLevelFrom mark nest begun (s ++ c :: t) = topLevelFrom mark nest begun s ++ topLevelFrom mark {} [] t := by
  induction s generalizing nest begun with
  | nil =>
    obtain rfl : nest = {} := closed
    exact topLevelFrom_cut cuts begun t
  | cons d rest ih =>
    rw [List.cons_append, topLevelFrom, topLevelFrom]
    split
    next cut =>
      -- The state is the first one again behind a cut, so the rest is read from there.
      obtain rfl := outside_of_cuts cut
      have same : Nest.step {} d = {} := step_ordinary (ordinary_of_cuts cut) 0
      have closed' : Nest.read {} rest = {} := by rwa [Nest.read, List.foldl_cons, same] at closed
      rw [ih closed', List.cons_append]
    next => exact ih closed (d :: begun)

theorem split_joined (cuts : Nest.cutsAt {} mark c = true) (closed : Nest.read {} s = {}) (t : Text) :
    splitTopLevelBy mark (s ++ c :: t) = splitTopLevelBy mark s ++ splitTopLevelBy mark t := by
  rw [splitTopLevelBy, topLevelFrom_joined cuts closed, List.map_append, List.filter_append]
  rfl

/-- Blanks in front of a piece are trimmed off it. -/
theorem topLevelFrom_behind_blanks {white : Text} (blanks : ∀ c ∈ white, isBlank c = true) (nest : Nest) (begun t : Text) :
    (topLevelFrom mark nest (begun ++ white) t).map trim = (topLevelFrom mark nest begun t).map trim := by
  have front : ∀ c ∈ white.reverse, isBlank c = true := fun c member => blanks c (List.mem_reverse.mp member)
  have piece : ∀ s : Text, trim ((s ++ white).reverse) = trim s.reverse := by
    intro s
    rw [List.reverse_append, trim, trimLeft_behind_blanks front, ← trim]
  induction t generalizing nest begun with
  | nil => simp only [topLevelFrom, List.map_cons, List.map_nil, piece]
  | cons d rest ih =>
    rw [topLevelFrom, topLevelFrom]
    split
    · simp only [List.map_cons, piece]
    · exact ih (nest.step d) (d :: begun)

theorem split_space (other : mark ' ' = false) (t : Text) : splitTopLevelBy mark (' ' :: t) = splitTopLevelBy mark t := by
  have uncut : Nest.cutsAt {} mark ' ' = false := by simp [Nest.cutsAt, other]
  have front := @topLevelFrom_behind_blanks mark [' '] (by decide) {} [] t
  rw [splitTopLevelBy, topLevelFrom, uncut, if_neg Bool.false_ne_true]
  exact congrArg (List.filter (!·.isEmpty)) front

end Cuts

section Joining

theorem declarationsOf_joined {s : Text} (closed : Nest.read {} s = {}) (t : Text) :
    declarationsOf (s ++ ';' :: ' ' :: t) = declarationsOf s ++ declarationsOf t := by
  have cuts : Nest.cutsAt {} (· == ';') ';' = true := by decide
  rw [declarationsOf, splitTopLevel, split_joined cuts closed, split_space (by decide), List.filterMap_append]
  rfl

theorem declarationsOf_body {raws : List RawDeclaration} (closed : ∀ raw ∈ raws.dropLast, Nest.read {} raw.text = {}) :
    declarationsOf (bodyOf raws) = raws.flatMap fun raw => declarationsOf raw.text := by
  induction raws with
  | nil => rfl
  | cons raw rest ih =>
    cases rest with
    | nil => simp [bodyOf]
    | cons next more =>
      rw [List.dropLast_cons_cons] at closed
      obtain ⟨own, others⟩ := List.forall_mem_cons.mp closed
      have joined : bodyOf (raw :: next :: more) = raw.text ++ ';' :: ' ' :: bodyOf (next :: more) := by
        simp [bodyOf, List.intercalate_cons_cons]
      rw [joined, declarationsOf_joined own, ih others]
      rfl

end Joining

/-- What is open behind a text: the closing brackets to come, the quote, and an escape. -/
structure Frame where
  closers : List Char := []
  quote : Option Char := none
  escaped : Bool := false
deriving Repr, DecidableEq

/-- Reads one character. No closing bracket may come but the next one. -/
def Frame.step (frame : Frame) (c : Char) : Option Frame :=
  if frame.escaped then some { frame with escaped := false }
  else if c = '\\' then some { frame with escaped := true }
  else
    match frame.quote with
    | some quote => some (if c = quote then { frame with quote := none } else frame)
    | none =>
      if isQuote c then some { frame with quote := some c }
      else if c = '(' then some { frame with closers := ')' :: frame.closers }
      else if c = '[' then some { frame with closers := ']' :: frame.closers }
      else if isCloser c then
        match frame.closers with
        | [] => none
        | closer :: outer => if c = closer then some { frame with closers := outer } else none
      else some frame

def framed (s : Text) : Option Frame := s.foldlM Frame.step {}

/-- Round and square brackets outside of strings that are closed in turn. -/
def Nested (s : Text) : Prop := ∃ frame, framed s = some frame ∧ frame.closers = []

/-- Nested text that does not end with a backslash that escapes nothing, and whose quotes are paired even if some
stand in an interpolation. -/
def Separable (s : Text) : Prop :=
  ∃ frame, framed s = some frame ∧ frame.closers = [] ∧ frame.escaped = false ∧ (Mixed s → frame.quote = none)

section Frames

variable {frame after : Frame} {s : Text} {c : Char}

def Frame.nest (frame : Frame) : Nest := ⟨frame.closers.length, frame.quote, frame.escaped⟩

theorem step_nest (stepped : frame.step c = some after) : frame.nest.step c = after.nest := by
  obtain ⟨closers, quote, escaped⟩ := frame
  unfold Frame.step at stepped
  cases escaped with
  | true =>
    obtain rfl := Option.some.inj stepped
    rfl
  | false =>
    by_cases escape : c = '\\'
    · subst escape
      obtain rfl := Option.some.inj stepped
      rfl
    cases quote with
    | some quote =>
      simp only [escape, if_false, Bool.false_eq_true, Option.some.injEq] at stepped
      subst stepped
      by_cases same : c = quote
      · subst same
        simp [Frame.nest, Nest.step, escape]
      · simp [Frame.nest, Nest.step, escape, same]
    | none =>
      by_cases quote : isQuote c = true
      · obtain rfl : { closers, quote := some c } = after := by simpa [escape, quote] using stepped
        simp [Frame.nest, Nest.step, escape, quote]
      by_cases round : c = '('
      · subst round
        obtain rfl := Option.some.inj stepped
        rfl
      by_cases square : c = '['
      · subst square
        obtain rfl := Option.some.inj stepped
        rfl
      have opener : isOpener c = false := by simp [isOpener, round, square]
      by_cases closes : isCloser c = true
      · cases closers with
        | nil => simp [escape, quote, round, square, closes] at stepped
        | cons closer outer =>
          obtain ⟨-, rfl⟩ : c = closer ∧ { closers := outer } = after := by
            simpa [escape, quote, round, square, closes] using stepped
          simp [Frame.nest, Nest.step, escape, quote, opener, closes]
      · obtain rfl : { closers } = after := by simpa [escape, quote, round, square, closes] using stepped
        simp [Frame.nest, Nest.step, escape, quote, opener, closes]

theorem read_nest (read : s.foldlM Frame.step frame = some after) : frame.nest.read s = after.nest := by
  induction s generalizing frame with
  | nil =>
    obtain rfl := Option.some.inj read
    rfl
  | cons c rest ih =>
    obtain ⟨middle, first, later⟩ := Option.bind_eq_some_iff.mp read
    rw [Nest.read, List.foldl_cons, step_nest first]
    exact ih later

theorem Separable.closed (separable : Separable s) (shut : Shut s) : Nest.read {} s = {} := by
  obtain ⟨frame, read, closers, escaped, quotes⟩ := separable
  have same : Nest.read {} s = frame.nest := read_nest read
  have quote : frame.quote = none := by
    rcases shut with mixed | closed
    · exact quotes mixed
    · rwa [same] at closed
  rw [same, Frame.nest, closers, quote, escaped]
  rfl

end Frames

/-- Whatever text is read, the declarations of a rule are those of the raw texts that were collected for it, if each
of these but the last is separable. -/
theorem parsed_body {source name : Text} {dialect : Dialect} {sheet : Stylesheet}
    (parsed : Stylesheet.parse source name dialect = .ok sheet) :
    ∃ findings, Findings.read dialect source = .ok findings ∧
      sheet.rules = (tracedIn source name [] findings.blocks).map Prod.fst ∧
      ∀ entry ∈ tracedIn source name [] findings.blocks, (∀ raw ∈ entry.2.declarations.dropLast, Separable raw.text) →
        declarationsOf entry.1.body = entry.2.declarations.flatMap fun raw => declarationsOf raw.text := by
  unfold Stylesheet.parse at parsed
  split at parsed
  · cases parsed
  next findings found =>
    cases parsed
    refine ⟨findings, found, (traced_rulesOf source name [] findings.blocks).symm, ?_⟩
    intro entry member separable
    have inside : entry.2 ∈ blocksIn findings.blocks := by
      rw [← traced_blocksIn source name []]
      exact List.mem_map_of_mem member
    have body : entry.1.body = bodyOf entry.2.declarations :=
      congrArg StyleBlock.body (tracedIn_styled source name [] findings.blocks entry member)
    rw [body]
    refine declarationsOf_body fun raw early => ?_
    exact (separable raw early).closed (declarations_shut found entry.2 inside raw (List.dropLast_subset _ early))

/-- The texts that were collected for the rules of a source. -/
def collected (dialect : Dialect) (source : Text) : Option (List (List Text)) :=
  (Findings.read dialect source).toOption.map fun findings =>
    (blocksIn findings.blocks).map fun block => block.declarations.map (·.text)

theorem entry_of_collected {source : Text} {dialect : Dialect} {texts : List Text} (name : Text)
    (known : collected dialect source = some [texts]) : ∃ findings entry, Findings.read dialect source = .ok findings ∧
      tracedIn source name [] findings.blocks = [entry] ∧ entry.2.declarations.map (·.text) = texts := by
  cases read : Findings.read dialect source with
  | error fault =>
    rw [collected, read] at known
    cases known
  | ok findings =>
    rw [collected, read] at known
    have blocks : (blocksIn findings.blocks).map (fun block => block.declarations.map (·.text)) = [texts] :=
      Option.some.inj known
    rw [← traced_blocksIn source name [], List.map_map] at blocks
    obtain ⟨entry, alone, texts⟩ := List.map_eq_singleton_iff.mp blocks
    exact ⟨findings, entry, rfl, alone, texts⟩

/-- The blank of an escape is trimmed off, and what is left of it escapes the semicolon. -/
theorem escaped_semicolon_hides_width : ¬ ∀ (source name : Text) (findings : Findings),
    Findings.read .css source = .ok findings → ∀ entry ∈ tracedIn source name [] findings.blocks,
      (∀ raw ∈ entry.2.declarations, Nested raw.text) →
        declarationsOf entry.1.body = entry.2.declarations.flatMap fun raw => declarationsOf raw.text := by
  intro every
  obtain ⟨findings, entry, read, alone, texts⟩ := @entry_of_collected ".a\x7bcolor:red\\ ;width:1px\x7d".toList .css
    ["color:red\\".toList, "width:1px".toList] "a.css".toList (by decide +kernel)
  have member : entry ∈ tracedIn _ "a.css".toList [] findings.blocks := alone ▸ List.mem_singleton_self entry
  have nested : ∀ text ∈ entry.2.declarations.map (·.text), Nested text := by
    rw [texts]
    exact List.forall_mem_cons.mpr ⟨⟨{ escaped := true }, by decide, rfl⟩, List.forall_mem_singleton.mpr ⟨{}, by decide, rfl⟩⟩
  have same := every _ "a.css".toList findings read entry member fun raw inside => nested _ (List.mem_map_of_mem inside)
  have body : entry.1.body = bodyOf entry.2.declarations := congrArg StyleBlock.body (tracedIn_styled _ _ [] _ entry member)
  rw [body, bodyOf, ← List.flatMap_map, texts] at same
  exact absurd same (by decide +kernel)

/-- Semicolons in brackets and in a string, a bracket in a string, and an escaped blank at the very end. -/
def menuBody : List Text :=
  ["background: url(a;b)".toList, "content: \"[;\"".toList, "grid-area: [x] / 1".toList, "color: red\\".toList]

def menuText : Text :=
  ".menu \x7b background: url(a;b); content: \"[;\"; grid-area: [x] / 1; color: red\\ \x7d".toList

theorem menu_body_keeps_declarations : ∃ findings entry, Findings.read .css menuText = .ok findings ∧
    entry ∈ tracedIn menuText "menu".toList [] findings.blocks ∧ entry.2.declarations.map (·.text) = menuBody ∧
      declarationsOf entry.1.body = entry.2.declarations.flatMap fun raw => declarationsOf raw.text := by
  obtain ⟨findings, entry, read, alone, texts⟩ := @entry_of_collected menuText .css menuBody "menu".toList (by decide +kernel)
  obtain ⟨sheet, parsed⟩ : ∃ sheet, Stylesheet.parse menuText "menu".toList .css = .ok sheet := by
    rw [Stylesheet.parse, read]
    exact ⟨_, rfl⟩
  obtain ⟨found, read', -, bodies⟩ := parsed_body parsed
  obtain rfl : findings = found := Except.ok.inj (read.symm.trans read')
  have member : entry ∈ tracedIn menuText "menu".toList [] findings.blocks := alone ▸ List.mem_singleton_self entry
  have separable : ∀ text ∈ menuBody.dropLast, Separable text := by
    have plain : ∀ text ∈ menuBody.dropLast, framed text = some {} := by decide +kernel
    exact fun text inside => ⟨{}, plain text inside, rfl, rfl, fun _ => rfl⟩
  refine ⟨findings, entry, read, member, texts, bodies entry member fun raw early => separable _ ?_⟩
  rw [← texts, ← List.map_dropLast]
  exact List.mem_map_of_mem early

end CascadeLens.Proofs.DeclarationBodies
