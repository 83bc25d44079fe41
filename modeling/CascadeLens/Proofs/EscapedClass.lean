import CascadeLens.Proofs.EscapedNames
import CascadeLens.Proofs.FeatureSearch
import CascadeLens.Proofs.FileMatches
import CascadeLens.Proofs.NestingProduct
import CascadeLens.Proofs.SheetFindings
import CascadeLens.Proofs.SheetItems

/-! A stylesheet with one rule about an escaped class, from the reading of its text to the match. The class is
found with its specificity except where an escape at the very end loses its blank, where the sign for the
parent is taken for one, and where a hyphen in front is not escaped although it has to be. -/

namespace CascadeLens.Proofs.EscapedClass
open Text Selector TextShape KeyedFold SheetWriting SheetSteps SheetItems SheetFindings SelectorEscapes EscapedNames
open FeatureSearch FileMatches NestingProduct

def spelling (name : Text) : Text := '.' :: (escape name ++ "\x7bcolor:red\x7d".toList)

section Reading

variable {lineComments : Bool} {reader : SheetReader} {name s : Text} {c : Char}

/-- Characters of which none takes part in the structure of a sheet. -/
def calm (c : Char) : Bool := isPlain c || c == ' '

theorem run_calm (begun : Begun reader) (still : ∀ c ∈ s, calm c = true) (rest : Text) :
    reader.run lineComments (s ++ rest) = (onward reader s).run lineComments rest := by
  have silent : ∀ d ∈ structural, calm d = false := by decide
  exact run_bare begun (fun c member inside => nomatch (silent c inside).symm.trans (still c member)) rest

theorem run_escapeChars (begun : Begun reader) (name rest : Text) :
    reader.run lineComments (name.flatMap escapeChar ++ rest) =
      (onward reader (name.flatMap escapeChar)).run lineComments rest := by
  induction name generalizing reader with
  | nil => exact run_calm begun (by simp) rest
  | cons c name ih =>
    rw [List.flatMap_cons, List.append_assoc, escapeChar]
    split
    next plain =>
      rw [run_calm begun (by simp [calm, plain]), ih (begun.onward _), onward_append]
    next =>
      rw [List.cons_append, List.singleton_append, run_escape begun, ih (begun.onward _), onward_append]

theorem run_escaped (begun : Begun reader) (name rest : Text) :
    reader.run lineComments (escape name ++ rest) = (onward reader (escape name)).run lineComments rest := by
  cases name with
  | nil => exact run_calm begun (by simp [escape]) rest
  | cons c name =>
    cases digit : isDigit c with
    | false =>
      rw [escape_other digit]
      exact run_escapeChars begun (c :: name) rest
    | true =>
      obtain ⟨first, more, digits⟩ := List.exists_cons_of_ne_nil (hexText_code c).filled
      have still : ∀ d ∈ more ++ [' '], calm d = true := by
        refine List.forall_mem_append.mpr ⟨fun d member => ?_, by decide⟩
        have hex := hex_digit d (digits ▸ List.mem_cons_of_mem first member)
        simp [calm, plain_of_hex hex]
      have whole : escape (c :: name) = ['\\', first] ++ ((more ++ [' ']) ++ name.flatMap escapeChar) := by
        rw [escape_digit digit, digits]
        simp
      rw [whole, List.append_assoc, List.append_assoc, List.cons_append, List.singleton_append, run_escape begun,
        run_calm (begun.onward _) still, run_escapeChars ((begun.onward _).onward _), onward_append, onward_append]

end Reading

section Sheets

theorem color_kept : Kept "color:red".toList :=
  ⟨by decide, by decide, by decide, by decide, by decide⟩

/-- The one block has for its selector what stands in front of the brace, without the blanks at the end. -/
theorem read_spelling (name : Text) : ∃ block, Findings.read .css (spelling name) = .ok ⟨[.node block []], [], [], []⟩ ∧
    block.selector = spaced ('.' :: trimRight (escape name)) := by
  have start : Ready ({} : SheetReader) := ⟨rfl, rfl, rfl, rfl, rfl⟩
  have dot : Kept ['.'] := ⟨by decide, by decide, by decide, by decide, by decide⟩
  have begun : Begun (held {} ['.']) := ⟨rfl, rfl, nofun⟩
  have kind : (opened {} ('.' :: escape name)).level =
      { kind := .style (spaced ('.' :: trimRight (escape name))) 0, atRules := [], start := {} } := by
    have prelude : trim (holding ({} : SheetReader).level {} ('.' :: escape name)).item.reverse =
        '.' :: trimRight (escape name) := by
      rw [holding, List.reverse_reverse, trim_cons (by decide)]
    simp only [opened, Level.inner, prelude]
    rfl
  have ready : Ready (opened {} ('.' :: escape name)) := by
    refine ⟨rfl, ?_⟩
    rw [kind]
    exact ⟨rfl, rfl, rfl, rfl⟩
  have around : (opened {} ('.' :: escape name)).outer = [({} : SheetReader).level] := rfl
  have closed := @run_last_declaration false _ _ _ _ ready color_kept around []
  rw [kind] at closed
  have read := calc SheetReader.run false {} (spelling name)
    _ = (held {} ['.']).run false (escape name ++ "\x7bcolor:red\x7d".toList) := run_item start dot _
    _ = (held {} ('.' :: escape name)).run false "\x7bcolor:red\x7d".toList := by
      rw [run_escaped begun, onward_held]
      rfl
    _ = (opened {} ('.' :: escape name)).run false "color:red\x7d".toList := run_held_opening start _ _
    _ = _ := closed
  exact ⟨_, @read_of_run .css _ _ read ⟨rfl, rfl, rfl, rfl, rfl⟩ rfl, rfl⟩

theorem parse_spelling (file name : Text) : ∃ sheet rule, Stylesheet.parse (spelling name) file .css = .ok sheet ∧
    sheet.rules = [rule] ∧ rule.selector = spaced ('.' :: trimRight (escape name)) ∧ rule.outer = [] := by
  obtain ⟨block, read, named⟩ := read_spelling name
  refine ⟨⟨file, .css, [⟨block.style (spelling name) file, []⟩], [], [], []⟩, _, ?_, rfl, named, rfl⟩
  rw [Stylesheet.parse, read]
  rfl

end Sheets

section Selectors

variable {name : Text} {c : Char}

/-- A name of a single digit ends with the blank of its escape. -/
def Lone (name : Text) : Prop := ∃ c, name = [c] ∧ isDigit c = true

theorem escape_first (filled : name ≠ []) (solid : Solidly name) : ∀ c, (escape name).head? = some c → isBlank c = false := by
  obtain ⟨c, rest, rfl⟩ := List.exists_cons_of_ne_nil filled
  intro d found
  cases digit : isDigit c with
  | true =>
    rw [escape_digit digit] at found
    exact Option.some.inj found ▸ by decide
  | false =>
    rw [escape_other digit] at found
    exact flatMap_solid solid d (List.mem_of_head? found)

theorem escape_last (solid : Solidly name) (several : ¬ Lone name) :
    ∀ c, (escape name).getLast? = some c → isBlank c = false := by
  cases name with
  | nil => exact nofun
  | cons c rest =>
    intro d found
    cases digit : isDigit c with
    | false =>
      rw [escape_other digit] at found
      exact flatMap_solid solid d (List.mem_of_getLast? found)
    | true =>
      have more : rest.flatMap escapeChar ≠ [] := by
        obtain ⟨e, others, rfl⟩ := List.exists_cons_of_ne_nil fun none : rest = [] => several ⟨c, by rw [none], digit⟩
        rw [List.flatMap_cons, escapeChar]
        split <;> simp
      rw [escape_digit digit, List.getLast?_cons_of_ne_nil (by simp), List.getLast?_append_of_ne_nil _ more] at found
      exact flatMap_solid (List.forall_mem_cons.mp solid).2 d (List.mem_of_getLast? found)

theorem trimRight_eq_self {s : Text} (last : ∀ c, s.getLast? = some c → isBlank c = false) : trimRight s = s :=
  (Shortened.self last).trimRight

theorem spaced_dotted (solid : Solidly name) (several : ¬ Lone name) : spaced ('.' :: escape name) = '.' :: escape name := by
  cases name with
  | nil => rfl
  | cons c rest =>
    have others : Solidly (rest.flatMap escapeChar) := flatMap_solid (List.forall_mem_cons.mp solid).2
    cases digit : isDigit c with
    | false =>
      have front : Solidly ('.' :: escape (c :: rest)) := by
        rw [escape_other digit]
        exact List.forall_mem_cons.mpr ⟨by decide, flatMap_solid solid⟩
      rw [spaced, words_solid (List.cons_ne_nil _ _) front, List.intercalate_singleton]
    | true =>
      have front : Solidly ('.' :: '\\' :: hexText c.toNat) :=
        List.forall_mem_cons.mpr ⟨by decide, List.forall_mem_cons.mpr ⟨by decide, hexText_solid c.toNat⟩⟩
      have more : rest.flatMap escapeChar ≠ [] := by
        intro none
        have last := escape_last solid several ' '
        rw [escape_digit digit, none, List.append_nil, List.getLast?_cons_of_ne_nil (by simp),
          List.getLast?_append_of_ne_nil _ (by simp)] at last
        exact absurd (last rfl) (by decide)
      have whole : '.' :: escape (c :: rest) = ('.' :: '\\' :: hexText c.toNat) ++ ' ' :: rest.flatMap escapeChar := by
        rw [escape_digit digit]
        simp
      rw [whole, spaced, words_parted (List.cons_ne_nil _ _) front, words_solid more others, List.intercalate_cons_cons,
        List.intercalate_singleton, List.append_assoc, List.singleton_append]

theorem selector_several (solid : Solidly name) (several : ¬ Lone name) :
    spaced ('.' :: trimRight (escape name)) = '.' :: escape name := by
  rw [trimRight_eq_self (escape_last solid several), spaced_dotted solid several]

theorem selector_lone (digit : isDigit c = true) :
    spaced ('.' :: trimRight (escape [c])) = '.' :: '\\' :: hexText c.toNat := by
  have front : Solidly ('\\' :: hexText c.toNat) := List.forall_mem_cons.mpr ⟨by decide, hexText_solid c.toNat⟩
  have whole : escape [c] = ('\\' :: hexText c.toNat) ++ [' '] := by
    rw [escape_digit digit]
    simp
  have last : trimRight ('\\' :: hexText c.toNat) = '\\' :: hexText c.toNat :=
    trimRight_eq_self fun d found => front d (List.mem_of_getLast? found)
  rw [whole, trimRight_before_blanks (by decide), last, spaced,
    words_solid (List.cons_ne_nil _ _) (List.forall_mem_cons.mpr ⟨by decide, front⟩), List.intercalate_singleton]

end Selectors

section Matching

variable {name text : Text}

theorem gather_single (filled : name ≠ []) (solid : Solidly name) : Identity.gather [name] [] [] [] [] = { classes := [name] } := by
  have trimmed : trim name = name := trim_eq_self
    ⟨fun c found => solid c (List.mem_of_head? found), fun c found => solid c (List.mem_of_getLast? found)⟩
  rw [Identity.gather, namesOf_trimmed fun other member => List.mem_singleton.mp member ▸ ⟨filled, trimmed⟩]
  rfl

theorem reasons_single (name text : Text) :
    (Shows name text ∧ ({ classes := [name] } : Identity).reasons text = ["class: ".toList ++ name]) ∨
      (¬ Shows name text ∧ ({ classes := [name] } : Identity).reasons text = []) := by
  have sought : ({ classes := [name] } : Identity).features = [.className name] := by simp [Identity.features]
  by_cases shown : Shows name text
  · have hit : ((Feature.className name).foundIn text || (Feature.className name).foundIn (Selector.expand text)) = true :=
      Bool.or_eq_true_iff.mpr shown
    refine Or.inl ⟨shown, ?_⟩
    rw [Identity.reasons, Identity.reasonsIn, shows_filled shown, if_neg Bool.false_ne_true, sought,
      List.filter_cons, if_pos hit]
    rfl
  · have miss : ¬ ((Feature.className name).foundIn text || (Feature.className name).foundIn (Selector.expand text)) = true :=
      mt Bool.or_eq_true_iff.mp shown
    refine Or.inr ⟨shown, ?_⟩
    rw [Identity.reasons, Identity.reasonsIn, sought, List.filter_cons, if_neg miss]
    split <;> rfl

theorem found_spelling (identity : Identity) (file name : Text) : ∃ rule,
    ((⟨file, spelling name, .css⟩ : Source).analyze identity {}).found =
      (identity.match? rule (.ofText (atRoot (spaced ('.' :: trimRight (escape name)))))).toList := by
  obtain ⟨sheet, rule, parsed, rules, named, outermost⟩ := parse_spelling file name
  have analyzed : Analyzed {} ⟨file, spelling name, .css⟩ sheet :=
    ⟨by simp, rfl, parsed, by simp [Stylesheet.isEmpty, rules]⟩
  have alone : rule.variants = [atRoot rule.selector] := by rw [Rule.variants, outermost, variants]
  refine ⟨rule, ?_⟩
  rw [analyze_of_analyzed analyzed, found_eq, rules, List.flatMap_singleton, alone, named]
  simp only [List.filterMap_cons, List.filterMap_nil]
  cases identity.match? rule (.ofText (atRoot (spaced ('.' :: trimRight (escape name))))) <;> rfl

theorem atRoot_eq_self (absent : '&' ∉ text) : atRoot text = text := by
  rw [atRoot, replace_eq_filled, filled_eq_self absent]

theorem atRoot_absent (text : Text) : '&' ∉ atRoot text := by
  intro member
  obtain ⟨c, _, inside⟩ := List.mem_flatMap.mp member
  split at inside
  · exact absurd inside (by decide)
  next other => exact other (by simpa using (List.mem_singleton.mp inside).symm)

theorem mem_escape {c : Char} (member : c ∈ name) (other : isDigit c = false) : c ∈ escape name := by
  have own : ∀ d, d ∈ escapeChar d := by
    intro d
    unfold escapeChar
    split <;> simp
  cases name with
  | nil => cases member
  | cons d rest =>
    cases digit : isDigit d with
    | false =>
      rw [escape_other digit]
      exact List.mem_flatMap.mpr ⟨c, member, own c⟩
    | true =>
      have later : c ∈ rest := by
        rcases List.mem_cons.mp member with rfl | later
        · rw [digit] at other
          cases other
        · exact later
      rw [escape_digit digit]
      exact List.mem_cons_of_mem _ (List.mem_append_right _ (List.mem_flatMap.mpr ⟨c, later, own c⟩))

theorem hexText_unsigned (value : Nat) : '&' ∉ hexText value := not_mem_hexText (by decide) value

theorem escape_unsigned (unsigned : '&' ∉ name) : '&' ∉ escape name := by
  have others : ∀ rest : Text, '&' ∉ rest → '&' ∉ rest.flatMap escapeChar := by
    intro rest absent member
    obtain ⟨c, own, inside⟩ := List.mem_flatMap.mp member
    unfold escapeChar at inside
    split at inside
    · exact absent (List.mem_singleton.mp inside ▸ own)
    · have same : '&' = c := by simpa using inside
      exact absent (same ▸ own)
  cases name with
  | nil => exact List.not_mem_nil
  | cons c rest =>
    cases digit : isDigit c with
    | false =>
      rw [escape_other digit]
      exact others _ unsigned
    | true =>
      have later := others rest fun member => unsigned (List.mem_cons_of_mem c member)
      rw [escape_digit digit]
      simp [hexText_unsigned, later]

/-- Every character that a name shares with its escaped form stands in a selector that shows it. -/
theorem mem_of_shows {c : Char} (shown : Shows name text) (member : c ∈ name) (other : isDigit c = false) (solid : c ≠ ' ') :
    c ∈ text := by
  have inside : ∀ s, hasMarked '.' name s = true → c ∈ s := by
    intro s marked
    obtain ⟨before, form, after, rfl, same, _⟩ := hasMarked_iff.mp marked
    have spelt : c ∈ form := by
      rcases same with rfl | rfl
      · exact member
      · exact mem_escape member other
    exact List.mem_append_right _ (List.mem_cons_of_mem _ (List.mem_append_left _ spelt))
  rcases shown with plain | expanded
  · exact inside text plain
  · exact (mem_expand (inside _ expanded)).resolve_left solid

theorem shows_dotted (name : Text) : Shows name ('.' :: escape name) :=
  Or.inl (hasMarked_iff.mpr ⟨[], escape name, [], by simp, Or.inr rfl, rfl⟩)

/-- Without the blank that ends it, the escape of a digit is another name. -/
theorem not_shows_lone {c : Char} (digit : isDigit c = true) : ¬ Shows [c] ('.' :: '\\' :: hexText c.toNat) := by
  have hex : ∀ d ∈ '\\' :: hexText c.toNat, d ≠ '.' ∧ d ≠ ':' := by
    refine List.forall_mem_cons.mpr ⟨by decide, fun d member => ?_⟩
    have own := hex_digit d member
    exact ⟨by rintro rfl; exact absurd own (by decide), by rintro rfl; exact absurd own (by decide)⟩
  have same : Selector.expand ('.' :: '\\' :: hexText c.toNat) = '.' :: '\\' :: hexText c.toNat := by
    have uncoloned : ':' ∉ '.' :: '\\' :: hexText c.toNat := by
      rintro (_ | ⟨_, later⟩)
      exact (hex ':' later).2 rfl
    simp [Selector.expand, arguments_uncoloned uncoloned]
  intro shown
  have marked : hasMarked '.' [c] ('.' :: '\\' :: hexText c.toNat) = true := by simpa [Shows, same] using shown
  obtain ⟨before, form, after, whole, spelt, _⟩ := hasMarked_iff.mp marked
  cases before with
  | cons d before =>
    obtain ⟨-, behind⟩ := List.cons.inj whole
    exact (hex '.' (behind ▸ List.mem_append_right before List.mem_cons_self)).1 rfl
  | nil =>
    obtain ⟨-, behind⟩ := List.cons.inj whole
    rcases spelt with rfl | rfl
    · obtain ⟨rfl, -⟩ := List.cons.inj behind
      exact absurd digit (by decide)
    · have long := congrArg List.length behind
      simp only [escape_digit digit, List.length_cons, List.length_append, List.length_nil] at long
      omega

theorem match_single (name text : Text) (rule : Rule) :
    (∃ found, (({ classes := [name] } : Identity).match? rule (.ofText text)).toList = [found] ∧
      found.reasons = ["class: ".toList ++ name] ∧ found.specificity = .oneClass) ↔
      Shows name text ∧ ({ classes := [name] } : Identity).specificityOf text = .oneClass := by
  rcases reasons_single name text with ⟨shown, given⟩ | ⟨hidden, none⟩
  · rcases match_cases { classes := [name] } rule text with ⟨none, _⟩ | hit
    · rw [none] at given
      cases given
    · rw [hit, given]
      constructor
      · rintro ⟨_, only, -, weight⟩
        obtain rfl := (List.cons.inj only).1
        exact ⟨shown, weight⟩
      · rintro ⟨-, weight⟩
        exact ⟨_, rfl, rfl, weight⟩
  · refine iff_of_false ?_ fun both => hidden both.1
    rintro ⟨found, only, reasons, -⟩
    rcases match_cases { classes := [name] } rule text with ⟨_, miss⟩ | hit
    · rw [miss] at only
      cases only
    · rw [hit, none] at only
      obtain rfl := (List.cons.inj only).1
      cases reasons

theorem specificityOf_dotted (filled : name ≠ []) (solid : Solidly name) (several : ¬ Lone name) :
    ({ classes := [name] } : Identity).specificityOf ('.' :: escape name) =
      if leads (escape name) then .oneClass else .zero := by
  have own := name_escape solid
  have alone : branches ('.' :: escape name) = ['.' :: escape name] :=
    branches_dotted own (escape_filled filled) (escape_last solid several)
  have given : ({ classes := [name] } : Identity).reasons ('.' :: escape name) = ["class: ".toList ++ name] := by
    rcases reasons_single name ('.' :: escape name) with ⟨_, given⟩ | ⟨hidden, _⟩
    · exact given
    · exact absurd (shows_dotted name) hidden
  have matching : ({ classes := [name] } : Identity).matchingBranches ('.' :: escape name) = ['.' :: escape name] := by
    simp [Identity.matchingBranches, alone, given]
  rw [Identity.specificityOf, matching]
  exact specificity_dotted own (escape_filled filled) (escape_first filled solid)

end Matching

/-- Names whose escaped spelling survives the way from the text to the match. -/
structure Recoverable (name : Text) : Prop where
  several : ¬ Lone name
  unsigned : '&' ∉ name
  led : Led name

theorem class_found_iff (file name : Text) (filled : name ≠ []) (solid : ∀ c ∈ name, isBlank c = false) :
    (∃ found, ((⟨file, spelling name, .css⟩ : Source).analyze (.gather [name] [] [] [] []) {}).found = [found] ∧
      found.reasons = ["class: ".toList ++ name] ∧ found.specificity = .oneClass) ↔ Recoverable name := by
  obtain ⟨rule, found⟩ := found_spelling { classes := [name] } file name
  rw [gather_single filled solid, found, match_single]
  by_cases unsigned : '&' ∈ name
  · refine iff_of_false ?_ fun recoverable => recoverable.unsigned unsigned
    rintro ⟨shown, -⟩
    exact atRoot_absent _ (mem_of_shows shown unsigned (by decide) (by decide))
  by_cases several : Lone name
  · refine iff_of_false ?_ fun recoverable => recoverable.several several
    obtain ⟨c, rfl, digit⟩ := several
    rintro ⟨shown, -⟩
    rw [selector_lone digit, atRoot_eq_self (by simp [hexText_unsigned])] at shown
    exact not_shows_lone digit shown
  have absent : '&' ∉ '.' :: escape name := by simp [escape_unsigned unsigned]
  rw [selector_several solid several, atRoot_eq_self absent, specificityOf_dotted filled solid several]
  constructor
  · rintro ⟨-, weight⟩
    refine ⟨several, unsigned, (leads_escape_iff filled).mp ?_⟩
    by_contra misled
    rw [if_neg misled] at weight
    cases weight
  · intro recoverable
    rw [if_pos ((leads_escape_iff filled).mpr recoverable.led)]
    exact ⟨shows_dotted name, rfl⟩

/-- Where the only character is a digit, its escape ends with the blank that is trimmed off the selector. -/
theorem digit_class_is_lost : ¬ ∀ name : Text, name ≠ [] → (∀ c ∈ name, isBlank c = false) →
    ∃ found, ((⟨"a.css".toList, spelling name, .css⟩ : Source).analyze (.gather [name] [] [] [] []) {}).found = [found] ∧
      found.reasons = ["class: ".toList ++ name] ∧ found.specificity = .oneClass := by
  intro every
  have lost : ((⟨"a.css".toList, spelling ['2'], .css⟩ : Source).analyze (.gather [['2']] [] [] [] []) {}).found = [] := by
    decide +kernel
  obtain ⟨found, only, -⟩ := every ['2'] (by decide) (by decide)
  rw [lost] at only
  cases only

theorem utility_class_is_found : ∃ found,
    ((⟨"a.css".toList, spelling "2xl:w-[50%]".toList, .css⟩ : Source).analyze (.gather ["2xl:w-[50%]".toList] [] [] [] [])
      {}).found = [found] ∧ found.reasons = ["class: 2xl:w-[50%]".toList] ∧ found.specificity = .oneClass := by
  have recoverable : Recoverable "2xl:w-[50%]".toList := by
    refine ⟨?_, by decide, nofun⟩
    rintro ⟨c, same, -⟩
    cases same
  exact (class_found_iff "a.css".toList "2xl:w-[50%]".toList (by decide) (by decide)).mpr recoverable

end CascadeLens.Proofs.EscapedClass
