import CascadeLens.Page.Locate
import CascadeLens.Proofs.KeyedFold
import CascadeLens.Proofs.PageTags
import CascadeLens.Proofs.PathSpelling

/-! Targets that are picked by lines. The lines are read without what stands around them, so a target is part of the page
when a reader of the page comes to stand at both ends of the lines: not in a comment or a tag, and at the beginning not in
raw content either. -/

namespace CascadeLens.Proofs.LineTargets
open Text Page TextShape LoweredText MarkupReading ReaderPlaces PageTags

section Lines

variable {html : Text} {first last : Nat}

/-- The text in front of a line. -/
def linesBefore (html : Text) (first : Nat) : Text := ((pieces '\n' html).take (first - 1)).flatMap (· ++ ['\n'])

/-- The text of some lines. -/
def linesIn (html : Text) (first last : Nat) : Text :=
  ['\n'].intercalate (((pieces '\n' html).take last).drop (first - 1))

/-- The text behind a line. -/
def linesBehind (html : Text) (last : Nat) : Text := ((pieces '\n' html).drop last).flatMap ('\n' :: ·)

theorem joined_front {glue : Text} {late : List Text} (filled : late ≠ []) (early : List Text) :
    glue.intercalate (early ++ late) = early.flatMap (· ++ glue) ++ glue.intercalate late := by
  induction early with
  | nil => rfl
  | cons line early ih =>
    rw [List.cons_append, List.intercalate_cons_of_ne_nil (List.append_ne_nil_of_right_ne_nil early filled), ih,
      List.flatMap_cons, List.append_assoc, List.append_assoc, List.append_assoc]

theorem joined_cons (glue line : Text) (more : List Text) :
    glue.intercalate (line :: more) = line ++ more.flatMap (glue ++ ·) := by
  induction more generalizing line with
  | nil => simp
  | cons next more ih => rw [List.intercalate_cons_cons, ih, List.flatMap_cons, List.append_assoc, List.append_assoc]

theorem joined_back {glue : Text} {early : List Text} (filled : early ≠ []) (late : List Text) :
    glue.intercalate (early ++ late) = glue.intercalate early ++ late.flatMap (glue ++ ·) := by
  obtain ⟨line, more, rfl⟩ := List.exists_cons_of_ne_nil filled
  rw [List.cons_append, joined_cons, joined_cons, List.flatMap_append, List.append_assoc]

/-- A text is its lines with what stands around them. -/
theorem lines_whole (order : first - 1 < last) (bound : last ≤ (pieces '\n' html).length) :
    html = linesBefore html first ++ (linesIn html first last ++ linesBehind html last) := by
  have filled : ((pieces '\n' html).take last).drop (first - 1) ≠ [] := by
    intro nothing
    have size := congrArg List.length nothing
    rw [List.length_drop, List.length_take, List.length_nil] at size
    omega
  have early : ((pieces '\n' html).take last).take (first - 1) = (pieces '\n' html).take (first - 1) := by
    rw [List.take_take, Nat.min_eq_left (Nat.le_of_lt order)]
  calc html = ['\n'].intercalate (pieces '\n' html) := by rw [PathSpelling.pieces_splitOn, List.intercalate_splitOn]
    _ = ['\n'].intercalate ((pieces '\n' html).take (first - 1) ++
          (((pieces '\n' html).take last).drop (first - 1) ++ (pieces '\n' html).drop last)) := by
      rw [← early, ← List.append_assoc, List.take_append_drop, List.take_append_drop]
    _ = linesBefore html first ++ (linesIn html first last ++ linesBehind html last) := by
      rw [joined_front (List.append_ne_nil_of_left_ne_nil filled _), joined_back filled]
      rfl

theorem lineRange_bounds {range : Text} {total : Nat} (lines : lineRange range total = .ok (first, last)) :
    first - 1 < last ∧ last ≤ total := by
  unfold lineRange at lines
  dsimp only at lines
  split at lines
  · split at lines
    · cases lines
    · split at lines
      · cases lines
      next counted =>
        simp only [Bool.or_eq_true, decide_eq_true_eq, not_or] at counted
        split at lines
        · cases lines
        · split at lines
          · cases lines
          · obtain ⟨rfl, rfl⟩ := Prod.mk.inj (Except.ok.inj lines)
            omega
  · cases lines

end Lines

section Cuts

variable {html : Text} {first last : Nat} {all : List (Text × List (Text × Text))}

/-- A reader of the page comes to stand where the lines begin, not in raw content, and from there where they end. -/
structure CleanlyCut (html : Text) (first last : Nat) : Prop where
  start : standing none html (linesBefore html first).length = some none
  stop : linesBehind html last = [] ∨
    (standing none (linesIn html first last ++ linesBehind html last) (linesIn html first last).length).isSome

theorem linesBehind_cases (html : Text) (last : Nat) : linesBehind html last = [] ∨ ∃ a, linesBehind html last = '\n' :: a := by
  unfold linesBehind
  cases (pieces '\n' html).drop last with
  | nil => exact .inl rfl
  | cons line more => exact .inr ⟨line ++ more.flatMap ('\n' :: ·), rfl⟩

/-- The tags of lines that are cut out cleanly stand one behind the other among those of the page. -/
theorem tags_of_lines (clean : CleanlyCut html first last) (order : first - 1 < last)
    (bound : last ≤ (pieces '\n' html).length) (read : tagsFrom? none html = some all) :
    ∃ own, tagsFrom? none (linesIn html first last) = some own ∧ own <:+: all := by
  have whole := lines_whole order bound
  obtain ⟨early, behind⟩ := tagsFrom_standing clean.start
  have left : (linesBefore html first ++ (linesIn html first last ++ linesBehind html last)).drop (linesBefore html first).length =
      linesIn html first last ++ linesBehind html last := List.drop_left
  rw [← whole] at left
  rw [left, read] at behind
  obtain ⟨rest, read', rfl⟩ := Option.map_eq_some_iff.mp behind.symm
  rcases linesBehind_cases html last with ended | ⟨a, more⟩
  · rw [ended, List.append_nil] at read'
    exact ⟨rest, read', (List.suffix_append early rest).isInfix⟩
  · have stop := clean.stop.resolve_left (by rw [more]; exact List.cons_ne_nil _ _)
    rw [more] at stop read'
    obtain ⟨own, late, found, rfl⟩ := tagsFrom_within stop read'
    exact ⟨own, found, early, late, List.append_assoc _ _ _⟩

end Cuts

section Parts

variable {page whole : Page} {identity : Identity} {position : Nat}

/-- The elements of a page, without the page itself. -/
def elementsOf (page : Page) : List Element := page.inOrder.map (·.1)

/-- Everything that is known of a target is that of an element of the page. Identities hold names without blanks around
them. -/
structure PartOf (page : Page) (identity : Identity) : Prop where
  tag : ∃ element ∈ elementsOf page, identity.tag = trim element.name
  classes : ∀ name ∈ identity.classes, ∃ element ∈ elementsOf page, name ∈ element.wordsOf "class"
  ids : ∀ name ∈ identity.ids, ∃ element ∈ elementsOf page, ∃ id, element.attribute? "id".toList = some id ∧ name = trim id
  dataAttributes : ∀ name ∈ identity.dataAttributes, ∃ element ∈ elementsOf page, name ∈ element.attributes.map (·.1)
  parts : ∀ name ∈ identity.parts, ∃ element ∈ elementsOf page, name ∈ element.wordsOf "part"

theorem mem_namesOf {name : Text} {items : List Text} (member : name ∈ namesOf items) : ∃ item ∈ items, name = trim item := by
  obtain ⟨listed, -⟩ := List.mem_filter.mp (KeyedFold.mem_distinct.mp member)
  obtain ⟨item, given, rfl⟩ := List.mem_map.mp listed
  exact ⟨item, given, rfl⟩

theorem trim_solid {word : Text} (solid : ∀ c ∈ word, isBlank c = false) : trim word = word :=
  trim_eq_self ⟨fun c first => solid c (List.mem_of_mem_head? first), fun c last => solid c (List.mem_of_mem_getLast? last)⟩

/-- The words of an attribute have no blanks around them. -/
theorem wordsOf_named {elements : List Element} {name : Text} {key : String}
    (member : name ∈ namesOf (elements.flatMap (·.wordsOf key))) : ∃ element ∈ elements, name ∈ element.wordsOf key := by
  obtain ⟨word, listed, rfl⟩ := mem_namesOf member
  obtain ⟨element, given, found⟩ := List.mem_flatMap.mp listed
  refine ⟨element, given, ?_⟩
  unfold Element.wordsOf at found ⊢
  cases value : element.attribute? key.toList with
  | none =>
    rw [value] at found
    cases found
  | some value' =>
    rw [value] at found
    have solid := (words_filled (s := value') found).2
    rw [trim_solid solid]
    exact found

/-- An element of a page is part of it with the elements inside. -/
theorem identityOf_part (named : ∀ element ∈ elementsOf page, Named (element.name, element.attributes))
    {element : Element} (member : (element, position) ∈ page.inOrder) : PartOf page (page.identityOf position) := by
  have own : element ∈ elementsOf page := List.mem_map.mpr ⟨(element, position), member, rfl⟩
  have inside : ∀ other ∈ (page.inOrder.filter fun entry => entry.2 == position || page.isInside position entry.2).map (·.1),
      other ∈ elementsOf page := by
    intro other listed
    obtain ⟨entry, kept, rfl⟩ := List.mem_map.mp listed
    exact List.mem_map.mpr ⟨entry, (List.mem_filter.mp kept).1, rfl⟩
  have placed : page.elements[position]? = some element := by
    rw [← Array.getElem?_toList]
    exact List.mem_zipIdx_iff_getElem?.mp (List.mem_of_mem_drop member)
  constructor
  · refine ⟨element, own, ?_⟩
    change lower (trim ((page.elements[position]?.map (·.name)).getD [])) = trim element.name
    rw [placed]
    exact lower_of_lowered fun c listed => (named element own).lowered c (mem_trim listed)
  · intro name listed
    obtain ⟨other, given, found⟩ := wordsOf_named listed
    exact ⟨other, inside other given, found⟩
  · intro name listed
    obtain ⟨id, found, rfl⟩ := mem_namesOf listed
    obtain ⟨other, given, same⟩ := List.mem_filterMap.mp found
    exact ⟨other, inside other given, id, same, rfl⟩
  · intro name listed
    obtain ⟨key, found, rfl⟩ := mem_namesOf listed
    obtain ⟨other, given, kept⟩ := List.mem_flatMap.mp found
    have key_listed := (List.mem_filter.mp kept).1
    obtain ⟨pair, held, rfl⟩ := List.mem_map.mp key_listed
    refine ⟨other, inside other given, ?_⟩
    rw [trim_solid ((named other (inside other given)).solid pair held)]
    exact key_listed
  · intro name listed
    obtain ⟨other, given, found⟩ := wordsOf_named listed
    exact ⟨other, inside other given, found⟩

/-- What is part of a page is part of every page that has its elements. -/
theorem PartOf.mono (part : PartOf page identity) (contained : ∀ element ∈ elementsOf page, ∃ other ∈ elementsOf whole,
    other.name = element.name ∧ other.attributes = element.attributes) : PartOf whole identity := by
  have attribute_same : ∀ {element other : Element}, other.attributes = element.attributes → ∀ key,
      other.attribute? key = element.attribute? key := by
    intro element other same key
    unfold Element.attribute?
    rw [same]
  have words_same : ∀ {element other : Element}, other.attributes = element.attributes → ∀ key,
      other.wordsOf key = element.wordsOf key := by
    intro element other same key
    unfold Element.wordsOf
    rw [attribute_same same]
  constructor
  · obtain ⟨element, member, same⟩ := part.tag
    obtain ⟨other, listed, name, -⟩ := contained element member
    exact ⟨other, listed, by rw [same, name]⟩
  · intro name given
    obtain ⟨element, member, found⟩ := part.classes name given
    obtain ⟨other, listed, -, attributes⟩ := contained element member
    exact ⟨other, listed, by rw [words_same attributes]; exact found⟩
  · intro name given
    obtain ⟨element, member, id, found, same⟩ := part.ids name given
    obtain ⟨other, listed, -, attributes⟩ := contained element member
    exact ⟨other, listed, id, (attribute_same attributes _).trans found, same⟩
  · intro name given
    obtain ⟨element, member, found⟩ := part.dataAttributes name given
    obtain ⟨other, listed, -, attributes⟩ := contained element member
    exact ⟨other, listed, by rw [attributes]; exact found⟩
  · intro name given
    obtain ⟨element, member, found⟩ := part.parts name given
    obtain ⟨other, listed, -, attributes⟩ := contained element member
    exact ⟨other, listed, by rw [words_same attributes]; exact found⟩

end Parts

section Targets

variable {html : Text} {first last : Nat}

theorem elementsOf_tags {s : Text} {page : Page} (read : parse? s = some page) :
    tagsFrom? none s = some ((elementsOf page).map fun element => (element.name, element.attributes)) := by
  obtain ⟨markup, found, rfl⟩ := Option.map_eq_some_iff.mp read
  rw [tagsFrom_markup, found, Option.map_some, ← ofMarkup_tags markup]
  rfl

theorem pickLines_lines {range : Text} {page : Page} {position : Nat}
    (lines : lineRange range (pieces '\n' html).length = .ok (first, last)) (picked : pickLines html range = .ok (page, position)) :
    parse? (linesIn html first last) = some page ∧ ∃ element, (element, position) ∈ page.inOrder := by
  unfold pickLines at picked
  dsimp only at picked
  rw [lines] at picked
  dsimp only at picked
  split at picked
  · cases picked
  next page' parsed =>
    split at picked
    · cases picked
    next element position' found =>
      obtain ⟨rfl, rfl⟩ := Prod.mk.inj (Except.ok.inj picked)
      exact ⟨parsed, element, List.mem_of_find?_eq_some found⟩

theorem located_by_lines {range : Text} {index : Int} {identity : Identity}
    (lines : lineRange range (pieces '\n' html).length = .ok (first, last))
    (located : (locate (.text html) none index (some range)).2 = .ok identity) : ∃ page element position,
      parse? (linesIn html first last) = some page ∧ (element, position) ∈ page.inOrder ∧ identity = page.identityOf position := by
  change (locateByLines (.text html) range).2 = .ok identity at located
  unfold locateByLines at located
  dsimp only at located
  cases picked : pickLines html range with
  | error fault =>
    rw [picked] at located
    cases located
  | ok place =>
    rw [picked] at located
    obtain ⟨parsed, element, member⟩ := pickLines_lines lines picked
    exact ⟨place.1, element, place.2, parsed, member, (Except.ok.inj located).symm⟩

/-- A target that is picked by lines that are cut out cleanly is part of the page. -/
theorem line_target_part_of_page {range : Text} {index : Int} {whole : Page} {identity : Identity}
    (read : parse? html = some whole) (lines : lineRange range (pieces '\n' html).length = .ok (first, last))
    (clean : CleanlyCut html first last) (located : (locate (.text html) none index (some range)).2 = .ok identity) :
    PartOf whole identity := by
  obtain ⟨order, bound⟩ := lineRange_bounds lines
  obtain ⟨page, element, position, parsed, member, rfl⟩ := located_by_lines lines located
  obtain ⟨own, found, within⟩ := tags_of_lines clean order bound (elementsOf_tags read)
  obtain rfl := Option.some.inj ((elementsOf_tags parsed).symm.trans found)
  have named : ∀ element ∈ elementsOf page, Named (element.name, element.attributes) :=
    fun element listed => tagsFrom_named found _ (List.mem_map_of_mem listed)
  refine (identityOf_part named member).mono ?_
  intro element listed
  obtain ⟨other, held, same⟩ := List.mem_map.mp (within.subset (List.mem_map_of_mem listed))
  exact ⟨other, held, (Prod.mk.inj same).1, (Prod.mk.inj same).2⟩

theorem menu_lines_part_of_page :
    let html := "<main>\n<ul id=\"m\" class=\"menu top\">\n<li data-x=\"1\" part=\"p\">a &amp; b</li>\n</ul>\n</main>".toList
    ∃ whole, parse? html = some whole ∧ lineRange "2-4".toList (pieces '\n' html).length = .ok (2, 4) ∧ CleanlyCut html 2 4 ∧
      (locate (.text html) none 0 (some "2-4".toList)).2 =
        .ok ⟨["menu".toList, "top".toList], ["m".toList], "ul".toList, ["data-x".toList], ["p".toList]⟩ ∧
      PartOf whole ⟨["menu".toList, "top".toList], ["m".toList], "ul".toList, ["data-x".toList], ["p".toList]⟩ := by
  intro html
  obtain ⟨whole, read⟩ : ∃ whole, parse? html = some whole := Option.isSome_iff_exists.mp (by decide +kernel)
  have lines : lineRange "2-4".toList (pieces '\n' html).length = .ok (2, 4) := by decide +kernel
  have clean : CleanlyCut html 2 4 := ⟨by decide +kernel, .inr (by decide +kernel)⟩
  have located : (locate (.text html) none 0 (some "2-4".toList)).2 =
      .ok ⟨["menu".toList, "top".toList], ["m".toList], "ul".toList, ["data-x".toList], ["p".toList]⟩ := by decide +kernel
  exact ⟨whole, read, lines, clean, located, line_target_part_of_page read lines clean located⟩

/-- Lines that begin in a comment make a target of what is no element. -/
theorem commented_item_is_no_part :
    let html := "<p>\n<!-- old:\n<i class=\"x\"></i> --><b class=\"y\"></b>\n</p>".toList
    ∃ whole, parse? html = some whole ∧
      (locate (.text html) none 0 (some "3-3".toList)).2 = .ok ⟨["x".toList], [], "i".toList, [], []⟩ ∧
      ¬PartOf whole ⟨["x".toList], [], "i".toList, [], []⟩ := by
  intro html
  obtain ⟨whole, read⟩ : ∃ whole, parse? html = some whole := Option.isSome_iff_exists.mp (by decide +kernel)
  refine ⟨whole, read, by decide +kernel, ?_⟩
  intro part
  obtain ⟨element, member, found⟩ := part.classes "x".toList List.mem_cons_self
  have absent : (parse? html).all fun page => (elementsOf page).all fun element => !(element.wordsOf "class").contains "x".toList := by
    decide +kernel
  rw [read] at absent
  have other := List.all_eq_true.mp absent element member
  rw [List.contains_iff_mem.mpr found] at other
  cases other

end Targets

end CascadeLens.Proofs.LineTargets
