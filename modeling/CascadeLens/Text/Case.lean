import CascadeLens.Text.Letter
import CascadeLens.Text.CaseTable

/-! Lower case, and equality of letters when case is ignored. -/

namespace CascadeLens.Text

def lowerCode (code : Nat) : Nat :=
  match lowerRows.find? fun (first, last, step, _) =>
      first ≤ code && code ≤ last && (code - first) % step == 0 with
  | some (_, _, _, shift) => (Int.ofNat code + shift).toNat
  | none => code

/-- The lower-case form of one letter by itself. -/
def lowerChar (c : Char) : Char :=
  if c.toNat < 128 then c.toLower else Char.ofNat (lowerCode c.toNat)

/-- Whether a letter has a case and counts for the form of a sigma beside it. -/
def isCased (c : Char) : Bool :=
  if c.toNat < 128 then c.isAlpha else inRanges casedRanges c.toNat

/-- Whether the search for a cased letter passes over a character. -/
def isCaseIgnorable (c : Char) : Bool :=
  if c.toNat < 128 then c ∈ ['\'', '.', ':', '^', '\x60']
  else inRanges caseIgnorableRanges c.toNat

/-- Whether the first character that is not passed over is a cased letter. -/
def beginsCased (s : Text) : Bool :=
  match s.dropWhile isCaseIgnorable with
  | [] => false
  | c :: _ => isCased c

/-- Lower case of a text that follows a cased letter or not. A capital sigma at the end of a
word takes its final form, and a capital I with a dot keeps the dot as a mark of its own. -/
def lowerAfter (cased : Bool) : Text → Text
  | [] => []
  | c :: rest =>
    let after := if isCaseIgnorable c then cased else isCased c
    if c == 'Σ' then
      (if cased && !beginsCased rest then 'ς' else 'σ') :: lowerAfter after rest
    else if c == 'İ' then 'i' :: '\u0307' :: lowerAfter after rest
    else lowerChar c :: lowerAfter after rest

def lower (s : Text) : Text := lowerAfter false s

/-- Letters in lower case that stand for a letter in lower case when case is ignored, itself left
out. The long s, the Kelvin sign and the two Turkish letters i stand for their ASCII relatives. -/
def siblingsOf (base : Char) : List Nat := (caseSiblings.lookup base.toNat).getD []

/-- Whether a character stands for the given letter when case is ignored. -/
def sameLetter (letter c : Char) : Bool :=
  let base := lowerChar letter
  let other := lowerChar c
  other == base || (siblingsOf base).contains other.toNat

/-- Letters whose lower case has the given code. -/
def capitalsOf (code : Nat) : List Nat :=
  (if 97 ≤ code && code ≤ 122 then [code - 32] else [])
    ++ lowerRows.filterMap fun (first, last, step, shift) =>
      let capital := Int.ofNat code - shift
      if first ≤ capital && capital ≤ last && (capital - first) % step == 0 then
        some capital.toNat
      else none

/-- All characters that stand for the given one when case is ignored. -/
def letterForms (c : Char) : List Char :=
  let base := lowerChar c
  let forms := base.toNat :: siblingsOf base
  (forms ++ forms.flatMap capitalsOf).map Char.ofNat

/-- The rest of a text that begins with the given word when case is ignored. -/
def dropWord? : Text → Text → Option Text
  | [], s => some s
  | _ :: _, [] => none
  | letter :: word, c :: rest => if sameLetter letter c then dropWord? word rest else none

end CascadeLens.Text
