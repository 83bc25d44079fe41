import CascadeLens.Text.Quoted
import CascadeLens.Text.Utf8

/-! The SHA-1 digest of a text, which stands for it in the keys of a cache. -/

namespace CascadeLens.Text

/-- The five words of a digest under way. -/
structure DigestState where
  a : UInt32 := 0x67452301
  b : UInt32 := 0xEFCDAB89
  c : UInt32 := 0x98BADCFE
  d : UInt32 := 0x10325476
  e : UInt32 := 0xC3D2E1F0

def rotate (bits word : UInt32) : UInt32 := (word <<< bits) ||| (word >>> (32 - bits))

/-- Adds schedule words in front of the latest ones. -/
def extendSchedule : Nat → List UInt32 → List UInt32
  | 0, words => words
  | count + 1, words =>
    let word (back : Nat) : UInt32 := (words[back - 1]?).getD 0
    extendSchedule count (rotate 1 (word 3 ^^^ word 8 ^^^ word 14 ^^^ word 16) :: words)

/-- The function and the constant of a round. -/
def roundTerm (index : Nat) (s : DigestState) : UInt32 :=
  if index < 20 then ((s.b &&& s.c) ||| (~~~s.b &&& s.d)) + 0x5A827999
  else if index < 40 then (s.b ^^^ s.c ^^^ s.d) + 0x6ED9EBA1
  else if index < 60 then ((s.b &&& s.c) ||| (s.b &&& s.d) ||| (s.c &&& s.d)) + 0x8F1BBCDC
  else (s.b ^^^ s.c ^^^ s.d) + 0xCA62C1D6

def digestRound (s : DigestState) (word : UInt32 × Nat) : DigestState :=
  ⟨rotate 5 s.a + roundTerm word.2 s + s.e + word.1, s.a, rotate 30 s.b, s.c, s.d⟩

def bigEndian (bytes : List UInt8) : UInt32 :=
  bytes.foldl (fun word byte => (word <<< 8) ||| byte.toUInt32) 0

/-- Cuts a list into parts of one more than the given size, the last of which may be shorter. -/
def chunks {α : Type} (more : Nat) : List α → List (List α)
  | [] => []
  | first :: rest => (first :: rest.take more) :: chunks more (rest.drop more)
termination_by items => items.length
decreasing_by simp only [List.length_cons, List.length_drop]; omega

def digestBlock (s : DigestState) (block : List UInt8) : DigestState :=
  let schedule := (extendSchedule 64 ((chunks 3 block).map bigEndian).reverse).reverse
  let t := schedule.zipIdx.foldl digestRound s
  ⟨s.a + t.a, s.b + t.b, s.c + t.c, s.d + t.d, s.e + t.e⟩

/-- The lowest `count` bytes of a number, the highest of them first. -/
def lowBytes : Nat → Nat → List UInt8
  | 0, _ => []
  | count + 1, value => lowBytes count (value / 256) ++ [UInt8.ofNat (value % 256)]

/-- Bytes filled up to whole blocks of 64, with their number of bits at the end. -/
def padded (bytes : List UInt8) : List UInt8 :=
  let fill := (119 - bytes.length % 64) % 64
  bytes ++ 0x80 :: List.replicate fill 0 ++ lowBytes 8 (8 * bytes.length)

/-- The digest of a text in hexadecimal. -/
def digest (s : Text) : Text :=
  let final := (chunks 63 (padded (utf8 s))).foldl digestBlock {}
  [final.a, final.b, final.c, final.d, final.e].flatMap fun word => hexDigits 8 word.toNat

end CascadeLens.Text
