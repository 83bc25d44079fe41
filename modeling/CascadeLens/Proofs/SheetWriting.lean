import CascadeLens.Proofs.TextShape
import CascadeLens.Stylesheet.Reader

/-! Stylesheets as they are written: forests of declarations, style rules, conditional groups and
blocks that are passed over or kept, and what a reader should find in them. Nothing here depends on
how a text is read. -/

namespace CascadeLens.Proofs.SheetWriting
open Text TextShape

/-- Characters that begin a string, an escape or a comment. -/
def masking : List Char := ['"', '\'', '\\', '/']

/-- Text of words with single spaces between them that takes no part in the structure around it. A
hash at its end would, if a brace followed. -/
structure Plain (s : Text) : Prop where
  filled : s ≠ []
  words : spaced s = s
  bare : ∀ c ∈ s, c ∉ '\x7b' :: '\x7d' :: ';' :: masking
  parens : Paired '(' ')' s
  last : s.getLast? ≠ some '#'

instance (s : Text) : Decidable (Plain s) :=
  decidable_of_iff (s ≠ [] ∧ spaced s = s ∧ (∀ c ∈ s, c ∉ '\x7b' :: '\x7d' :: ';' :: masking) ∧
      Paired '(' ')' s ∧ s.getLast? ≠ some '#')
    ⟨fun ⟨filled, words, bare, parens, last⟩ => ⟨filled, words, bare, parens, last⟩,
      fun ⟨filled, words, bare, parens, last⟩ => ⟨filled, words, bare, parens, last⟩⟩

inductive SheetItem where
  | declaration (text : Text)
  | style (selector : Text) (items : List SheetItem)
  /-- A conditional at-rule whose block is read. -/
  | group (rule : AtRule) (items : List SheetItem)
  /-- Any other at-rule with a block. -/
  | block (rule : AtRule) (contents : Text)

def Named (names : List String) (rule : AtRule) : Prop := ∃ name ∈ names, name.toList = lower rule.name

instance (names : List String) (rule : AtRule) : Decidable (Named names rule) :=
  inferInstanceAs (Decidable (∃ name ∈ names, name.toList = lower rule.name))

/-- A name that ends where the parameters begin. -/
structure Spelled (rule : AtRule) : Prop where
  named : rule.name ≠ []
  letters : ∀ c ∈ rule.name, isNameChar c = true
  params : rule.params = [] ∨ Plain rule.params

instance (rule : AtRule) : Decidable (Spelled rule) :=
  decidable_of_iff (rule.name ≠ [] ∧ (∀ c ∈ rule.name, isNameChar c = true) ∧ (rule.params = [] ∨ Plain rule.params))
    ⟨fun ⟨named, letters, params⟩ => ⟨named, letters, params⟩,
      fun ⟨named, letters, params⟩ => ⟨named, letters, params⟩⟩

mutual

def SheetItem.Proper : SheetItem → Prop
  | .declaration text => Plain text
  | .style selector items => Plain selector ∧ selector.head? ≠ some '@' ∧ AllProper items
  | .group rule items => Spelled rule ∧ Named groupNames rule ∧ AllProper items
  | .block rule contents => Spelled rule ∧ ¬ Named groupNames rule ∧
      (∀ c ∈ contents, c ∉ masking) ∧ Paired '\x7b' '\x7d' contents

def AllProper : List SheetItem → Prop
  | [] => True
  | item :: rest => item.Proper ∧ AllProper rest

end

mutual

def SheetItem.decidableProper : (item : SheetItem) → Decidable item.Proper
  | .declaration text => inferInstanceAs (Decidable (Plain text))
  | .style selector items =>
    have := decidableAllProper items
    inferInstanceAs (Decidable (Plain selector ∧ selector.head? ≠ some '@' ∧ AllProper items))
  | .group rule items =>
    have := decidableAllProper items
    inferInstanceAs (Decidable (Spelled rule ∧ Named groupNames rule ∧ AllProper items))
  | .block rule contents =>
    inferInstanceAs (Decidable (Spelled rule ∧ ¬ Named groupNames rule ∧
      (∀ c ∈ contents, c ∉ masking) ∧ Paired '\x7b' '\x7d' contents))

def decidableAllProper : (items : List SheetItem) → Decidable (AllProper items)
  | [] => inferInstanceAs (Decidable True)
  | item :: rest =>
    have := item.decidableProper
    have := decidableAllProper rest
    inferInstanceAs (Decidable (item.Proper ∧ AllProper rest))

end

instance (items : List SheetItem) : Decidable (AllProper items) := decidableAllProper items

def opening (rule : AtRule) : Text := '@' :: rule.name ++ (if rule.params = [] then [] else ' ' :: rule.params)

mutual

def SheetItem.text : SheetItem → Text
  | .declaration text => text ++ [';']
  | .style selector items => selector ++ '\x7b' :: textOf items ++ ['\x7d']
  | .group rule items => opening rule ++ '\x7b' :: textOf items ++ ['\x7d']
  | .block rule contents => opening rule ++ '\x7b' :: contents ++ ['\x7d']

def textOf : List SheetItem → Text
  | [] => []
  | item :: rest => item.text ++ textOf rest

end

/-- Names of at-rules are known in lower case. -/
def known (rule : AtRule) : AtRule := ⟨lower rule.name, rule.params⟩

def direct (items : List SheetItem) : List Text :=
  items.filterMap fun
    | .declaration text => some text
    | _ => none

inductive Finding where
  | rule (rule : Rule)
  | block (block : AtBlock)
  | declaration (declaration : RawDeclaration)

def Finding.rule? : Finding → Option Rule
  | .rule found => some found
  | _ => none

def Finding.block? : Finding → Option AtBlock
  | .block found => some found
  | _ => none

def Finding.declaration? : Finding → Option RawDeclaration
  | .declaration found => some found
  | _ => none

mutual

/-- The number of places in the order of rules that an item takes up. A group inside a style rule
takes one for the declarations in it, even if there are none. -/
def SheetItem.places (inStyle : Bool) : SheetItem → Nat
  | .declaration _ => 0
  | .style _ items => 1 + placesOf true items
  | .group _ items => (if inStyle then 1 else 0) + placesOf inStyle items
  | .block _ _ => 0

def placesOf (inStyle : Bool) : List SheetItem → Nat
  | [] => 0
  | item :: rest => item.places inStyle + placesOf inStyle rest

end

def ruleFor (name : Text) (atRules : List AtRule) (line order : Nat) (selector text : Text) (items : List SheetItem) :
    StyleBlock where
  selector := selector
  body := "; ".toList.intercalate (direct items)
  atRules := atRules
  source := name
  startLine := line
  endLine := line + text.count '\n'
  order := order
  text := text

section Findings

variable (name : Text)

mutual

/-- What is found in an item that begins in a line, inside at-rules and style rules, given the place
of the next rule in the order. -/
def SheetItem.findings (atRules : List AtRule) (outer : List StyleBlock) (line order : Nat) : SheetItem → List Finding
  | .declaration text => if outer.isEmpty then [.declaration ⟨text, line⟩] else []
  | .style selector items =>
    let own := ruleFor name atRules line order selector (SheetItem.style selector items).text items
    .rule ⟨own, outer⟩ :: findingsIn atRules (own :: outer) line (order + 1) items
  | .group rule items =>
    let atRules := atRules ++ [known rule]
    let own := ruleFor name atRules line order ['&'] (SheetItem.group rule items).text items
    if outer.isEmpty then findingsIn atRules outer line order items
    else
      (if (direct items).isEmpty then [] else [.rule ⟨own, outer⟩])
        ++ findingsIn atRules outer line (order + 1) items
  | .block rule contents =>
    let text := (SheetItem.block rule contents).text
    if Named ("property" :: keyframesNames) rule then
      [.block ⟨lower rule.name, rule.params, text, name, line, line + text.count '\n', atRules⟩]
    else []

def findingsIn (atRules : List AtRule) (outer : List StyleBlock) (line order : Nat) : List SheetItem → List Finding
  | [] => []
  | item :: rest =>
    item.findings atRules outer line order
      ++ findingsIn atRules outer (line + item.text.count '\n') (order + item.places (!outer.isEmpty)) rest

end

/-- The stylesheet that a forest spells. -/
def sheetOf (dialect : Dialect) (items : List SheetItem) : Stylesheet :=
  let found := findingsIn name [] [] 1 0 items
  let blocks := found.filterMap Finding.block?
  { name
    dialect
    rules := found.filterMap Finding.rule?
    keyframes := blocks.filter (·.name != "property".toList)
    properties := blocks.filter (·.name == "property".toList)
    declarations := found.filterMap Finding.declaration? }

end Findings

end CascadeLens.Proofs.SheetWriting
