import CascadeLens.Text.Quoted

/-! Values with named fields, and their written form in JSON. -/

namespace CascadeLens

open Text

inductive Document where
  | null
  | flag (value : Bool)
  | number (value : Int)
  | text (value : Text)
  | list (items : List Document)
  | record (fields : List (Text × Document))

namespace Document

/-- A character in a written text. Anything but printable ASCII is written by its code, and by two
codes beyond the basic plane. -/
def writtenChar (c : Char) : Text :=
  let code := c.toNat
  if c == '"' || c == '\\' then ['\\', c]
  else if c == '\n' then ['\\', 'n']
  else if c == '\r' then ['\\', 'r']
  else if c == '\t' then ['\\', 't']
  else if c == '\x08' then ['\\', 'b']
  else if c == '\x0c' then ['\\', 'f']
  else if 32 ≤ code && code < 127 then [c]
  else if code < 0x10000 then '\\' :: 'u' :: hexDigits 4 code
  else
    '\\' :: 'u' :: hexDigits 4 (0xD800 + (code - 0x10000) / 0x400)
      ++ '\\' :: 'u' :: hexDigits 4 (0xDC00 + (code - 0x10000) % 0x400)

def writtenText (s : Text) : Text := '"' :: s.flatMap writtenChar ++ ['"']

/-- Items on lines of their own between brackets, which stay together if there are none. -/
def enclosed (opening closing : Char) (indent : Nat) (items : List Text) : Text :=
  if items.isEmpty then [opening, closing]
  else
    let margin := List.replicate (indent + 2) ' '
    opening :: '\n' :: [',', '\n'].intercalate (items.map (margin ++ ·))
      ++ '\n' :: List.replicate indent ' ' ++ [closing]

mutual

/-- The written form, with lines indented by two more spaces on each level. -/
def written (indent : Nat) : Document → Text
  | null => "null".toList
  | flag value => (if value then "true" else "false").toList
  | number value => (toString value).toList
  | text value => writtenText value
  | list items => enclosed '[' ']' indent (writtenItems (indent + 2) items)
  | record fields => enclosed '\x7b' '\x7d' indent (writtenFields (indent + 2) fields)

def writtenItems (indent : Nat) : List Document → List Text
  | [] => []
  | item :: rest => item.written indent :: writtenItems indent rest

def writtenFields (indent : Nat) : List (Text × Document) → List Text
  | [] => []
  | (name, value) :: rest =>
    (writtenText name ++ ": ".toList ++ value.written indent) :: writtenFields indent rest

end

/-- A record with names given as literals. -/
def fields (entries : List (String × Document)) : Document :=
  record (entries.map fun (name, value) => (name.toList, value))

def texts (items : List Text) : Document := list (items.map text)

def ofText? : Option Text → Document
  | some value => text value
  | none => null

end Document

end CascadeLens
