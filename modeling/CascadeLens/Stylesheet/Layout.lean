import CascadeLens.Text.Find

/-! The shape of stylesheet text: whether it is minified, and laying out minified text for
display. -/

namespace CascadeLens

open Text

/-- Whether lines are longer than two hundred characters on average, counting their ends. -/
def isMinified (s : Text) : Bool := 200 * (s.count '\n' + 1) < s.length

/-- Drops blank lines: a line end, blanks, and a line end become one line end. -/
def dropBlankLines : Text → Text
  | [] => []
  | c :: rest =>
    if c == '\n' then
      let blanks := rest.takeWhile isBlank
      let after := (blanks.reverse.dropWhile (· != '\n')).length
      '\n' :: dropBlankLines (rest.drop after)
    else c :: dropBlankLines rest
termination_by s => s.length
decreasing_by all_goals simp only [List.length_cons, List.length_drop]; omega

/-- A line end behind every comma, in place of the blanks there. -/
def breakAtCommas : Text → Text
  | [] => []
  | c :: rest =>
    if c == ',' then ',' :: '\n' :: breakAtCommas (rest.dropWhile isBlank)
    else c :: breakAtCommas rest
termination_by s => s.length
decreasing_by
  · have := (List.dropWhile_sublist isBlank (l := rest)).length_le
    simp only [List.length_cons]; omega
  · simp

/-- The text around one character of a stylesheet laid out with a declaration per line. -/
def layOutChar (c : Char) : Text :=
  if c == '\x7b' then " \x7b\n  ".toList
  else if c == ';' then ";\n  ".toList
  else if c == '\x7d' then "\n\x7d\n".toList
  else [c]

/-- Minified text with one declaration per line. -/
def layOut (s : Text) : Text := trim (dropBlankLines (breakAtCommas (s.flatMap layOutChar)))

/-- The text as it is displayed. -/
def displayed (minified : Bool) (s : Text) : Text := if minified then layOut s else s

end CascadeLens
