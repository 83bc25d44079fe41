import CascadeLens.Proofs.TextShape
import CascadeLens.Selector.Weight
import CascadeLens.Text.Find
import Mathlib.Data.Prod.Lex

/-! Selectors as they are written: trees of lists, branches, compounds and their pieces, and what
each counts for in CSS. Nothing here depends on how a text is read. -/

namespace CascadeLens.Proofs.SelectorWriting
open Text Selector TextShape

/-- ASCII letters, digits, underscores and hyphens behind a letter or an underscore. -/
def isIdentifier : Text → Bool
  | [] => false
  | c :: rest => (c.isAlpha || c == '_') && rest.all fun c => c.isAlphanum || c == '_' || c == '-'

abbrev Identifier := { name : Text // isIdentifier name = true }

/-- Room between two pieces of a selector. -/
abbrev Gap := { s : Text // ∀ c ∈ s, isBlank c = true ∧ isAscii c = true }

/-- The names of the functions that take a selector list, in lower case. -/
def listNames : ListFunction → List String
  | .anyOf => ["is", "not", "has", "matches"]
  | .whereOf => ["where"]
  | .host => ["host", "host-context"]
  | .slotted => ["slotted"]

def Names (function : ListFunction) (name : Identifier) : Prop := ∃ word ∈ listNames function, lower name = word.toList

instance (function : ListFunction) (name : Identifier) : Decidable (Names function name) :=
  inferInstanceAs (Decidable (∃ word ∈ listNames function, lower name = word.toList))

/-- A name that is not reserved for a function of selectors. -/
abbrev FreeName := { name : Identifier // ∀ function, ¬ Names function name }

structure Arguments where
  text : Text
  balanced : Paired '(' ')' text
  bare : holds ['/', '*'] text = false

structure Quoted where
  quote : Char
  text : Text
  quotes : quote = '"' ∨ quote = '\''
  bare : ∀ c ∈ text, c ≠ quote ∧ c ≠ '\\' ∧ c ≠ '\n'

inductive Value where
  | word (name : Identifier)
  | quoted (quoted : Quoted)

def Value.text : Value → Text
  | .word name => name
  | .quoted inner => inner.quote :: inner.text ++ [inner.quote]

inductive Comparison where
  | equal
  | oneWord
  | dashed
  | start
  | finish
  | inside

def Comparison.text : Comparison → Text
  | .equal => ['=']
  | .oneWord => ['~', '=']
  | .dashed => ['|', '=']
  | .start => ['^', '=']
  | .finish => ['$', '=']
  | .inside => ['*', '=']

structure Test where
  before : Gap
  comparison : Comparison
  after : Gap
  value : Value

def Test.text (test : Test) : Text := test.before ++ test.comparison.text ++ test.after ++ test.value.text

inductive Sign where
  | child
  | next
  | later

def Sign.mark : Sign → Char
  | .child => '>'
  | .next => '+'
  | .later => '~'

structure Combinator where
  before : Gap
  sign : Sign
  after : Gap

def Combinator.text (combinator : Combinator) : Text :=
  combinator.before ++ combinator.sign.mark :: combinator.after

inductive Join where
  | descendant (room : Gap) (apart : room.1 ≠ [])
  | combinator (written : Combinator)

def Join.text : Join → Text
  | .descendant room _ => room
  | .combinator written => written.text

/-- What stands before the first compound of a branch. A combinator does in an argument of `:has`. -/
inductive Lead where
  | room (room : Gap)
  | combinator (written : Combinator)

def Lead.text : Lead → Text
  | .room gap => gap
  | .combinator written => written.text

mutual

inductive Piece where
  | className (name : Identifier)
  | idName (name : Identifier)
  | bracket (name : Identifier) (test : Option Test)
  | pseudoClass (name : Identifier)
  | pseudoElement (name : Identifier)
  | pseudoFunction (name : FreeName) (arguments : Arguments)
  | elementFunction (name : FreeName) (arguments : Arguments)
  | listFunction (function : ListFunction) (name : Identifier) (named : Names function name) (list : SelectorList)

/-- A type name, a star or a piece, and any pieces behind it. -/
inductive Compound where
  | typeName (name : Identifier)
  | universal
  | piece (piece : Piece)
  | more (compound : Compound) (piece : Piece)

inductive Chain where
  | last (compound : Compound)
  | joined (compound : Compound) (join : Join) (rest : Chain)

inductive SelectorList where
  | last (lead : Lead) (branch : Chain) (trail : Gap)
  | more (lead : Lead) (branch : Chain) (trail : Gap) (rest : SelectorList)

end

def colonsOf : ListFunction → Text
  | .slotted => [':', ':']
  | _ => [':']

mutual

def Piece.text : Piece → Text
  | .className name => '.' :: name
  | .idName name => '#' :: name
  | .bracket name test => '[' :: name.1 ++ (test.map Test.text).getD [] ++ [']']
  | .pseudoClass name => ':' :: name
  | .pseudoElement name => ':' :: ':' :: name
  | .pseudoFunction name arguments => ':' :: name.1 ++ '(' :: arguments.text ++ [')']
  | .elementFunction name arguments => ':' :: ':' :: name.1 ++ '(' :: arguments.text ++ [')']
  | .listFunction function name _ list => colonsOf function ++ name ++ '(' :: list.text ++ [')']

def Compound.text : Compound → Text
  | .typeName name => name
  | .universal => ['*']
  | .piece piece => piece.text
  | .more compound piece => compound.text ++ piece.text

def Chain.text : Chain → Text
  | .last compound => compound.text
  | .joined compound join rest => compound.text ++ join.text ++ rest.text

def SelectorList.text : SelectorList → Text
  | .last lead branch trail => lead.text ++ branch.text ++ trail
  | .more lead branch trail rest => lead.text ++ branch.text ++ trail ++ ',' :: rest.text

end

/-- How many names of each kind a selector counts, ids before classes before elements. -/
structure Counts where
  ids : ℕ := 0
  classes : ℕ := 0
  elements : ℕ := 0
deriving DecidableEq

namespace Counts

instance : Add Counts where
  add a b := ⟨a.ids + b.ids, a.classes + b.classes, a.elements + b.elements⟩

def key (counts : Counts) : ℕ ×ₗ ℕ ×ₗ ℕ := toLex (counts.ids, toLex (counts.classes, counts.elements))

theorem key_injective : Function.Injective key := by
  rintro ⟨ids, classes, elements⟩ ⟨ids', classes', elements'⟩ same
  simp only [key, EmbeddingLike.apply_eq_iff_eq, Prod.mk.injEq] at same
  obtain ⟨rfl, rfl, rfl⟩ := same
  rfl

instance : LinearOrder Counts := LinearOrder.lift' key key_injective

def vector (counts : Counts) : Specificity where
  ids := counts.ids
  classes := counts.classes
  elements := counts.elements

end Counts

/-- Pseudo-elements that CSS 2 wrote with one colon. -/
def legacyElements : List String := ["before", "after", "first-line", "first-letter"]

mutual

def Piece.counts : Piece → Counts
  | .className _ => { classes := 1 }
  | .idName _ => { ids := 1 }
  | .bracket _ _ => { classes := 1 }
  | .pseudoClass name => if ∃ word ∈ legacyElements, lower name = word.toList then { elements := 1 } else { classes := 1 }
  | .pseudoElement _ => { elements := 1 }
  | .pseudoFunction _ _ => { classes := 1 }
  | .elementFunction _ _ => { elements := 1 }
  | .listFunction .anyOf _ _ list => list.counts
  | .listFunction .whereOf _ _ _ => {}
  | .listFunction .host _ _ list => { classes := 1 } + list.counts
  | .listFunction .slotted _ _ list => { elements := 1 } + list.counts

def Compound.counts : Compound → Counts
  | .typeName _ => { elements := 1 }
  | .universal => {}
  | .piece piece => piece.counts
  | .more compound piece => compound.counts + piece.counts

def Chain.counts : Chain → Counts
  | .last compound => compound.counts
  | .joined compound _ rest => compound.counts + rest.counts

def SelectorList.counts : SelectorList → Counts
  | .last _ branch _ => branch.counts
  | .more _ branch _ rest => max branch.counts rest.counts

end

section Sample

def nothing : Gap := ⟨[], fun _ member => (nomatch member)⟩

def space : Gap := ⟨[' '], by decide⟩

def linked : Piece :=
  .bracket ⟨"href".toList, by decide⟩ (some ⟨nothing, .start, space, .quoted ⟨'"', "a], b".toList, Or.inl rfl, by decide⟩⟩)

def unlessOld : Piece :=
  .listFunction .anyOf ⟨"Not".toList, by decide⟩ (by decide)
    (.more (.room nothing) (.last (.piece (.className ⟨"old".toList, by decide⟩))) nothing
      (.last (.combinator ⟨space, .next, nothing⟩) (.last (.piece (.idName ⟨"top".toList, by decide⟩))) nothing))

def odd : Piece :=
  .pseudoFunction ⟨⟨"nth-child".toList, by decide⟩, fun function => by cases function <;> decide⟩
    ⟨"(2n) + 1".toList, by decide, by decide⟩

def navigation : SelectorList :=
  .more (.room nothing)
    (.joined (.more (.more (.typeName ⟨"a".toList, by decide⟩) linked) unlessOld) (.combinator ⟨space, .child, space⟩)
      (.joined (.piece odd) (.descendant space (by decide)) (.last (.piece (.pseudoClass ⟨"before".toList, by decide⟩)))))
    nothing (.last (.room space) (.last .universal) nothing)

example : navigation.text = "a[href^= \"a], b\"]:Not(.old, +#top) > :nth-child((2n) + 1) :before, *".toList := by
  decide

example : navigation.counts = { ids := 1, classes := 2, elements := 2 } := by decide

end Sample

end CascadeLens.Proofs.SelectorWriting
