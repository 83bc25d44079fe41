import CascadeLens.Proofs.SelectorNames
import CascadeLens.Target.Matcher

/-! Selectors made of names as they are written, with the names they hold of classes, ids, elements and
attributes. The lists inside of functions are selectors again, to any depth. -/

namespace CascadeLens.Proofs.NamedSelectors
open Text TextShape SelectorWriting SelectorNames

abbrev Room := { s : Text // ∀ c ∈ s, isBlank c = true }

/-- What an attribute is compared with. -/
structure Condition where
  before : Room
  comparison : Comparison
  after : Room
  value : Identifier

def Condition.text (condition : Condition) : Text :=
  condition.before ++ (condition.comparison.text ++ (condition.after ++ condition.value))

inductive Link where
  | descendant (room : Room) (apart : room.1 ≠ [])
  | combinator (before : Room) (sign : Sign) (after : Room)

def Link.text : Link → Text
  | .descendant room _ => room
  | .combinator before sign after => before ++ sign.mark :: after

inductive Grade where
  | piece
  | compound
  | branch
  | list

/-- A compound is a type name, a star or a piece, and any pieces behind it. Every function takes a list. -/
inductive Part : Grade → Type where
  | className (name : Identifier) : Part .piece
  | idName (name : Identifier) : Part .piece
  | bracket (name : Identifier) (condition : Option Condition) : Part .piece
  | pseudoClass (name : Identifier) : Part .piece
  | pseudoElement (name : Identifier) : Part .piece
  | function (name : Identifier) (before : Room) (arguments : Part .list) (after : Room) : Part .piece
  | typeName (name : Identifier) : Part .compound
  | universal : Part .compound
  | single (piece : Part .piece) : Part .compound
  | more (compound : Part .compound) (piece : Part .piece) : Part .compound
  | lone (compound : Part .compound) : Part .branch
  | linked (compound : Part .compound) (link : Link) (rest : Part .branch) : Part .branch
  | last (branch : Part .branch) : Part .list
  | listed (branch : Part .branch) (before after : Room) (rest : Part .list) : Part .list

namespace Part

def text {grade : Grade} : Part grade → Text
  | className name => '.' :: name
  | idName name => '#' :: name
  | bracket name condition => '[' :: (name.1 ++ ((condition.map Condition.text).getD [] ++ [']']))
  | pseudoClass name => ':' :: name
  | pseudoElement name => ':' :: ':' :: name
  | function name before arguments after =>
    ':' :: (name.1 ++ '(' :: (before.1 ++ (arguments.text ++ (after.1 ++ [')']))))
  | typeName name => name
  | universal => ['*']
  | single piece => piece.text
  | more compound piece => compound.text ++ piece.text
  | lone compound => compound.text
  | linked compound link rest => compound.text ++ (link.text ++ rest.text)
  | last branch => branch.text
  | listed branch before after rest => branch.text ++ (before.1 ++ ',' :: (after.1 ++ rest.text))

/-- The names of a selector in order. Those of elements and attributes are in lower case, because
their case is ignored. -/
def names {grade : Grade} : Part grade → List Feature
  | className name => [.className name]
  | idName name => [.idName name]
  | bracket name _ => [.dataAttribute (lower name)]
  | pseudoClass _ => []
  | pseudoElement _ => []
  | function _ _ arguments _ => arguments.names
  | typeName name => [.tag (lower name)]
  | universal => []
  | single piece => piece.names
  | more compound piece => compound.names ++ piece.names
  | lone compound => compound.names
  | linked compound _ rest => compound.names ++ rest.names
  | last branch => branch.names
  | listed branch _ _ rest => branch.names ++ rest.names

theorem function_append (name : Identifier) (before : Room) (arguments : Part .list) (after : Room) (s : Text) :
    (function name before arguments after).text ++ s =
      ':' :: (name ++ '(' :: (before ++ (arguments.text ++ (after ++ ')' :: s)))) := by
  simp [text]

theorem listed_append (branch : Part .branch) (before after : Room) (rest : Part .list) (s : Text) :
    (listed branch before after rest).text ++ s = branch.text ++ (before ++ ',' :: (after ++ (rest.text ++ s))) := by
  simp [text]

end Part

/-- A selector list with room around it. -/
structure Whole where
  before : Room
  list : Part .list
  after : Room

def Whole.text (whole : Whole) : Text := whole.before ++ (whole.list.text ++ whole.after)

section Sample

def menu : Identifier := ⟨"menu".toList, by decide⟩

def unlessMenu : Part .piece :=
  .function ⟨"not".toList, by decide⟩ ⟨[' '], by decide⟩
    (.listed (.lone (.single (.className menu))) ⟨[], by decide⟩ ⟨[' '], by decide⟩
      (.last (.lone (.single (.bracket menu (some ⟨⟨[' '], by decide⟩, .oneWord, ⟨[], by decide⟩, menu⟩))))))
    ⟨[], by decide⟩

def banner : Whole where
  before := ⟨[], by decide⟩
  list := .last (.linked (.more (.typeName ⟨"Nav".toList, by decide⟩) unlessMenu)
    (.combinator ⟨[], by decide⟩ .child ⟨[], by decide⟩) (.lone (.single (.idName menu))))
  after := ⟨['\n'], by decide⟩

example : banner.text = "Nav:not( .menu, [menu ~=menu])>#menu\n".toList ∧
    banner.list.names = [.tag "nav".toList, .className menu, .dataAttribute menu, .idName menu] := by
  decide

end Sample

section Ends

/-- Text that begins and ends with something. -/
structure Solid (s : Text) : Prop where
  filled : s ≠ []
  trimmed : Trimmed s

theorem solid_of_letters {s : Text} (filled : s ≠ []) (letters : ∀ c ∈ s, isBlank c = false) : Solid s :=
  ⟨filled, fun c found => letters c (List.mem_of_head? found), fun c found => letters c (List.mem_of_getLast? found)⟩

theorem solid_mark {c : Char} (solid : isBlank c = false) : Solid [c] := solid_of_letters (by simp) (by simpa using solid)

theorem Solid.around {s t : Text} (left : Solid s) (right : Solid t) (middle : Text) : Solid (s ++ (middle ++ t)) where
  filled := List.append_ne_nil_of_left_ne_nil left.filled _
  trimmed := by
    constructor
    · intro c found
      rw [List.head?_append_of_ne_nil _ left.filled] at found
      exact left.trimmed.first c found
    · intro c found
      have behind : middle ++ t ≠ [] := List.append_ne_nil_of_right_ne_nil middle right.filled
      rw [List.getLast?_append_of_ne_nil _ behind, List.getLast?_append_of_ne_nil _ right.filled] at found
      exact right.trimmed.last c found

theorem Solid.append {s t : Text} (left : Solid s) (right : Solid t) : Solid (s ++ t) := left.around right []

theorem identifier_solid (name : Identifier) : Solid name :=
  solid_of_letters (identifier_filled name) fun c member => not_blank_of_isNameChar (identifier_isNameChar name c member)

theorem solid {grade : Grade} (part : Part grade) : Solid part.text := by
  have dot : Solid ['.'] := solid_mark rfl
  have colon : Solid [':'] := solid_mark rfl
  induction part with
  | className name => exact dot.append (identifier_solid name)
  | idName name => exact (solid_mark rfl).append (identifier_solid name)
  | bracket name condition =>
    have closed := @Solid.around ['['] [']'] (solid_mark rfl) (solid_mark rfl)
      (name.1 ++ (condition.map Condition.text).getD [])
    simpa [Part.text] using closed
  | pseudoClass name => exact colon.append (identifier_solid name)
  | pseudoElement name => exact colon.append (colon.append (identifier_solid name))
  | function name before arguments after =>
    have closed := @Solid.around [':'] [')'] colon (solid_mark rfl)
      (name.1 ++ '(' :: (before.1 ++ (arguments.text ++ after.1)))
    simpa [Part.text] using closed
  | typeName name => exact identifier_solid name
  | universal => exact solid_mark rfl
  | single piece ih => exact ih
  | more compound piece left right => exact left.append right
  | lone compound ih => exact ih
  | linked compound link rest left right => exact left.around right link.text
  | last branch ih => exact ih
  | listed branch before after rest left right =>
    have joined := left.around right (before.1 ++ ',' :: after.1)
    simpa [Part.text] using joined

end Ends

section Brackets

/-- Text in which every bracket is closed, so that a search for the end of an open one passes over it. -/
def Balanced (s : Text) : Prop := ∀ (balance : Int) (rest : Text), 0 < balance →
  closingFrom balance none false (s ++ rest) = (closingFrom balance none false rest).map (· + s.length)

theorem Balanced.append {s t : Text} (left : Balanced s) (right : Balanced t) : Balanced (s ++ t) := by
  intro balance rest opened
  rw [List.append_assoc, left balance _ opened, right balance _ opened, Option.map_map]
  congr 1
  funext length
  simp only [Function.comp_apply, List.length_append]
  omega

/-- Characters that take part in the nesting of brackets. -/
def nesting : List Char := ['\\', '"', '\'', '(', '[', ')', ']']

theorem balanced_flat {s : Text} (flat : ∀ c ∈ s, c ∉ nesting) : Balanced s := by
  intro balance rest opened
  induction s with
  | nil => simp
  | cons c s ih =>
    obtain ⟨own, others⟩ := List.forall_mem_cons.mp flat
    simp only [nesting, List.mem_cons, List.not_mem_nil, or_false, not_or] at own
    obtain ⟨slash, double, quote, round, square, round', square'⟩ := own
    rw [List.cons_append, closingFrom, ih others]
    simp [slash, isQuote, double, quote, isOpener, round, square, isCloser, round', square', Function.comp_def,
      Nat.add_assoc]

theorem Balanced.enclosed {s : Text} (inner : Balanced s) {opener closer : Char} (opens : isOpener opener = true)
    (closes : isCloser closer = true) : Balanced (opener :: (s ++ [closer])) := by
  intro balance rest opened
  have inside : closingFrom (balance + 1) none false (closer :: rest) = (closingFrom balance none false rest).map (· + 1) := by
    have plain : closer ≠ '\\' ∧ isQuote closer = false ∧ isOpener closer = false := by
      rcases (by simpa [isCloser] using closes : closer = ')' ∨ closer = ']') with rfl | rfl <;> decide
    rw [closingFrom]
    simp [plain, closes, opened.ne']
  have whole : opener :: (s ++ [closer]) ++ rest = opener :: (s ++ closer :: rest) := by simp
  have plain : opener ≠ '\\' ∧ isQuote opener = false := by
    rcases (by simpa [isOpener] using opens : opener = '(' ∨ opener = '[') with rfl | rfl <;> decide
  rw [whole, closingFrom]
  simp only [Bool.false_eq_true, if_false, beq_eq_false_iff_ne.mpr plain.1, plain.2, opens, if_true,
    inner (balance + 1) _ (by omega), inside, Option.map_map]
  congr 1
  funext length
  simp only [Function.comp_apply, List.length_cons, List.length_append, List.length_nil]
  omega

theorem letter_apart {marks : List Char} (silent : ∀ mark ∈ marks, isNameChar mark = false) {name : Identifier} {c : Char}
    (member : c ∈ name.1) : c ∉ marks := by
  intro listed
  have letter := identifier_isNameChar name c member
  rw [silent c listed] at letter
  cases letter

theorem blank_apart {marks : List Char} (solid : ∀ mark ∈ marks, isBlank mark = false) {room : Room} {c : Char}
    (member : c ∈ room.1) : c ∉ marks := by
  intro listed
  have white := room.2 c member
  rw [solid c listed] at white
  cases white

theorem identifier_balanced (name : Identifier) : Balanced name :=
  balanced_flat fun _ member => letter_apart (by decide) member

theorem room_balanced (room : Room) : Balanced room := balanced_flat fun _ member => blank_apart (by decide) member

theorem mark_balanced {c : Char} (flat : c ∉ nesting) : Balanced [c] := balanced_flat (by simpa using flat)

theorem Condition.balanced (condition : Condition) : Balanced condition.text := by
  have compared : Balanced condition.comparison.text := by
    apply balanced_flat
    cases condition.comparison <;> decide
  exact (room_balanced condition.before).append
    (compared.append ((room_balanced condition.after).append (identifier_balanced condition.value)))

theorem Link.balanced (link : Link) : Balanced link.text := by
  cases link with
  | descendant room apart => exact room_balanced room
  | combinator before sign after =>
    have mark : Balanced [sign.mark] := by
      apply mark_balanced
      cases sign <;> decide
    exact (room_balanced before).append (mark.append (room_balanced after))

theorem balanced {grade : Grade} (part : Part grade) : Balanced part.text := by
  have colon : Balanced [':'] := mark_balanced (by decide)
  induction part with
  | className name => exact (mark_balanced (by decide)).append (identifier_balanced name)
  | idName name => exact (mark_balanced (by decide)).append (identifier_balanced name)
  | bracket name condition =>
    have inner : Balanced ((condition.map Condition.text).getD []) := by
      cases condition with
      | none => exact balanced_flat (by simp)
      | some condition => exact condition.balanced
    have closed := @Balanced.enclosed _ ((identifier_balanced name).append inner) '[' ']' rfl rfl
    simpa [Part.text] using closed
  | pseudoClass name => exact colon.append (identifier_balanced name)
  | pseudoElement name => exact colon.append (colon.append (identifier_balanced name))
  | function name before arguments after ih =>
    have inner := (room_balanced before).append (ih.append (room_balanced after))
    have closed := @Balanced.enclosed _ inner '(' ')' rfl rfl
    have whole := colon.append ((identifier_balanced name).append closed)
    simpa [Part.text] using whole
  | typeName name => exact identifier_balanced name
  | universal => exact mark_balanced (by decide)
  | single piece ih => exact ih
  | more compound piece left right => exact left.append right
  | lone compound ih => exact ih
  | linked compound link rest left right => exact left.append (link.balanced.append right)
  | last branch ih => exact ih
  | listed branch before after rest left right =>
    have comma : Balanced [','] := mark_balanced (by decide)
    exact left.append ((room_balanced before).append (comma.append ((room_balanced after).append right)))

end Brackets

end CascadeLens.Proofs.NamedSelectors
