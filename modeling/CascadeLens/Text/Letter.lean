import CascadeLens.Text.Blank
import CascadeLens.Text.WordTable
import CascadeLens.Text.PrintTable

/-! Classes of characters that names and messages depend on. ASCII is decided by comparison,
everything else by the tables. -/

namespace CascadeLens.Text

def inRanges (ranges : List (Nat × Nat)) (code : Nat) : Bool :=
  ranges.any fun (first, last) => first ≤ code && code ≤ last

/-- Letters, numbers and the underscore. -/
def isWord (c : Char) : Bool :=
  if c.toNat < 128 then c.isAlphanum || c == '_' else inRanges wordRanges c.toNat

/-- A character of a word or a hyphen. -/
def isNameChar (c : Char) : Bool := c == '-' || isWord c

/-- The value of a decimal digit of any script. -/
def decimalValue? (c : Char) : Option Nat :=
  if c.toNat < 128 then
    if c.isDigit then some (c.toNat - 48) else none
  else
    (decimalZeros.find? fun first => first ≤ c.toNat && c.toNat < first + 10).map (c.toNat - ·)

def isDecimal (c : Char) : Bool := (decimalValue? c).isSome

/-- The number a run of decimal digits stands for. Other characters count as zero. -/
def decimalNumber (s : Text) : Nat :=
  s.foldl (fun value c => 10 * value + (decimalValue? c).getD 0) 0

/-- Digits in the wide sense, superscript and circled ones included. -/
def isDigit (c : Char) : Bool :=
  if c.toNat < 128 then c.isDigit else inRanges digitRanges c.toNat

def isHexDigit (c : Char) : Bool :=
  c.isDigit || ('a' ≤ c && c ≤ 'f') || ('A' ≤ c && c ≤ 'F')

def hexValue (c : Char) : Nat :=
  if c.isDigit then c.toNat - 48 else if 'a' ≤ c then c.toNat - 87 else c.toNat - 55

/-- The number that hexadecimal digits stand for. -/
def hexNumber (digits : Text) : Nat := digits.foldl (fun value c => 16 * value + hexValue c) 0

def isPrintable (c : Char) : Bool :=
  if c.toNat < 128 then 32 ≤ c.toNat && c.toNat < 127 else inRanges printRanges c.toNat

end CascadeLens.Text
