import CascadeLens.Cascade
import CascadeLens.Page.Links
import CascadeLens.Proofs.FeatureSearch
import CascadeLens.Proofs.KeyedFold
import Mathlib.Data.List.Nodup

/-! The load order of a page, the list of its links, and its inline stylesheets. No link leads to anything that looks like
the name of an inline stylesheet, so the order can be taken apart by names, and every inline stylesheet has one rank. -/

namespace CascadeLens.Proofs.LoadOrder
open Text Page FeatureSearch KeyedFold

/-- The form that names of inline stylesheets have. -/
def hasInlineForm (name : Text) : Bool :=
  match drop? "<style #".toList name with
  | none => false
  | some rest => 2 ≤ rest.length && rest.dropLast.all Char.isDigit && rest.getLast? == some '>'

/-- A directory that is written from the root. -/
def Anchored (directory : Path) : Prop := ∃ written, directory = Path.parse ('/' :: written)

def addresses (loads : List Load) : List Text :=
  loads.filterMap fun
    | .link address => some address
    | .inline _ => none

def positions (loads : List Load) : List Nat :=
  loads.filterMap fun
    | .link _ => none
    | .inline position => some position

/-- The three lists that a page makes of its stylesheets agree. -/
structure Consistent (page : Page) (base : Option Path) : Prop where
  inline : (page.loadOrder base).filter hasInlineForm = page.inlineStyles.map (·.name)
  numbered : page.inlineStyles.map (·.name) = (List.range' 1 page.inlineStyles.length).map inlineName
  texts : page.inlineStyles.map (·.text) = (positions (page.loads base)).map page.textOf
  linked : (page.loadOrder base).filter (!hasInlineForm ·) = page.links base
  /-- Whatever a link says, it does not lead to an inline stylesheet. -/
  apart : ∀ href number, resolveHref base href ≠ inlineName number
  single : ∀ source ∈ page.inlineStyles, (page.loadOrder base).count source.name = 1
  ranked : ∀ source ∈ page.inlineStyles, ∀ names, ∃! rank, (source.name, rank) ∈ fileRanks names (page.loadOrder base)

section Names

variable {base : Option Path} {name : Text}

theorem form_iff : hasInlineForm name = true ↔
    ∃ digits, name = "<style #".toList ++ (digits ++ ['>']) ∧ digits ≠ [] ∧ ∀ c ∈ digits, c.isDigit = true := by
  rw [hasInlineForm]
  constructor
  · intro form
    split at form
    · cases form
    next rest found =>
      simp only [Bool.and_eq_true, decide_eq_true_eq, List.all_eq_true, beq_iff_eq] at form
      obtain ⟨⟨long, digits⟩, last⟩ := form
      refine ⟨rest.dropLast, ?_, ?_, digits⟩
      · rw [drop_eq_some.mp found, List.dropLast_append_getLast? '>' last]
      · intro nothing
        have short : rest.dropLast.length = 0 := by rw [nothing]; rfl
        rw [List.length_dropLast] at short
        omega
  · rintro ⟨digits, rfl, filled, all⟩
    have found : drop? "<style #".toList ("<style #".toList ++ (digits ++ ['>'])) = some (digits ++ ['>']) :=
      drop_eq_some.mpr rfl
    have long : 0 < digits.length := List.length_pos_iff.mpr filled
    rw [found]
    simp only [Bool.and_eq_true, decide_eq_true_eq, List.all_eq_true, beq_iff_eq, List.length_append, List.length_singleton,
      List.dropLast_concat, List.getLast?_concat, and_true]
    exact ⟨by omega, all⟩

theorem inlineName_digits (number : Nat) :
    inlineName number = "<style #".toList ++ (Nat.toDigits 10 number ++ ['>']) := by
  have digits : (toString number).toList = Nat.toDigits 10 number := by rw [Nat.toString_eq_repr, Nat.toList_repr]
  unfold inlineName
  rw [digits, List.append_assoc]

theorem inlineName_form (number : Nat) : hasInlineForm (inlineName number) = true := by
  apply form_iff.mpr
  refine ⟨Nat.toDigits 10 number, inlineName_digits number, Nat.toDigits_ne_nil, ?_⟩
  intro c member
  exact Nat.isDigit_of_mem_toDigits (by decide) (by decide) member

theorem inlineName_injective {number other : Nat} (same : inlineName number = inlineName other) : number = other := by
  rw [inlineName_digits, inlineName_digits] at same
  have digits := List.append_cancel_right (List.append_cancel_left same)
  have read := congrArg (Nat.ofDigitChars 10 · 0) digits
  simpa only [Nat.ofDigitChars_toDigits (by decide : 1 < 10) (by decide)] using read

theorem form_first (form : hasInlineForm name = true) : name.head? = some '<' := by
  obtain ⟨digits, rfl, -⟩ := form_iff.mp form
  rfl

theorem form_hash (form : hasInlineForm name = true) : '#' ∈ name := by
  obtain ⟨digits, rfl, -⟩ := form_iff.mp form
  exact List.mem_append_left _ (by decide)

theorem not_form_of_first {c : Char} (first : name.head? = some c) (other : c ≠ '<') : hasInlineForm name = false := by
  rw [← Bool.not_eq_true]
  intro form
  exact other (Option.some.inj (first.symm.trans (form_first form)))

theorem mem_cut {mark c : Char} {s : Text} (member : c ∈ (cut mark s).1) : c ∈ s ∧ c ≠ mark := by
  induction s with
  | nil => cases member
  | cons d rest ih =>
    rw [cut] at member
    split at member
    · cases member
    next other =>
      rcases List.mem_cons.mp member with rfl | later
      · exact ⟨List.mem_cons_self, by simpa using other⟩
      · exact ⟨List.mem_cons_of_mem _ (ih later).1, (ih later).2⟩

theorem anchored_root {directory : Path} (anchored : Anchored directory) : ∃ more, directory.root = '/' :: more := by
  obtain ⟨written, rfl⟩ := anchored
  cases written with
  | nil => exact ⟨[], rfl⟩
  | cons c rest =>
    by_cases second : c = '/'
    · subst second
      cases rest with
      | nil => exact ⟨['/'], rfl⟩
      | cons d rest =>
        by_cases third : d = '/'
        · subst third
          exact ⟨[], rfl⟩
        · exact ⟨['/'], by simp [Path.parse, Path.rootOf, third]⟩
    · exact ⟨[], by simp [Path.parse, Path.rootOf, second]⟩

theorem parse_relative {s : Text} (first : ∀ c, s.head? = some c → c ≠ '/') : (Path.parse s).root = [] := by
  cases s with
  | nil => rfl
  | cons c rest =>
    have other : c ≠ '/' := first c rfl
    simp [Path.parse, Path.rootOf, other]

/-- What a directory from the root leads to is written from the root. -/
theorem anchored_first {directory path : Path} (anchored : Anchored directory) (relative : path.root = []) :
    (directory.join path).normalize.text.head? = some '/' := by
  obtain ⟨more, root⟩ := anchored_root anchored
  simp [Path.join, Path.isAbsolute, relative, Path.normalize, Path.text, root]

/-- The part of a local link that counts holds no number sign and is read from the directory of the page. -/
theorem resolved_form (anchored : ∀ directory ∈ base, Anchored directory) (href : Text) :
    hasInlineForm (resolveHref base href) = false := by
  unfold resolveHref
  dsimp only
  split
  next remote =>
    simp only [isUrl, beginsWith, Option.isSome_iff_exists, Bool.or_eq_true, drop_eq_some] at remote
    rcases remote with (⟨rest, whole⟩ | ⟨rest, whole⟩) | ⟨rest, whole⟩
    · exact not_form_of_first (by rw [whole]; rfl) (by decide : 'h' ≠ '<')
    · exact not_form_of_first (by rw [whole]; rfl) (by decide : 'h' ≠ '<')
    · exact not_form_of_first (by rw [whole]; rfl) (by decide : '/' ≠ '<')
  next =>
    cases base with
    | none =>
      rw [← Bool.not_eq_true]
      intro form
      have among := (List.dropWhile_sublist _).mem (form_hash form)
      exact (mem_cut (mem_cut among).1).2 rfl
    | some directory =>
      apply not_form_of_first ?_ (by decide : '/' ≠ '<')
      apply anchored_first (anchored directory rfl)
      apply parse_relative
      intro c first
      have stopped := List.head?_dropWhile_not (· == '/') (cut '?' (cut '#' (trim href)).1).1
      rw [first] at stopped
      simpa using stopped

end Names

section Orders

variable {base : Option Path} {page : Page} {loads : List Load}

theorem names_inline (apart : ∀ address ∈ addresses loads, hasInlineForm address = false) (count : Nat) :
    (namesFrom count loads).filter hasInlineForm =
      (List.range' (count + 1) (positions loads).length).map inlineName := by
  induction loads generalizing count with
  | nil => rfl
  | cons load loads ih =>
    cases load with
    | link address =>
      obtain ⟨own, others⟩ := List.forall_mem_cons.mp apart
      have silent : ¬hasInlineForm address = true := by rw [own]; exact Bool.false_ne_true
      rw [namesFrom, List.filter_cons_of_neg silent]
      exact ih others count
    | inline position =>
      rw [namesFrom, List.filter_cons_of_pos (inlineName_form _), ih apart (count + 1)]
      rfl

theorem names_linked (apart : ∀ address ∈ addresses loads, hasInlineForm address = false) (count : Nat) :
    (namesFrom count loads).filter (!hasInlineForm ·) = addresses loads := by
  induction loads generalizing count with
  | nil => rfl
  | cons load loads ih =>
    cases load with
    | link address =>
      obtain ⟨own, others⟩ := List.forall_mem_cons.mp apart
      rw [namesFrom, List.filter_cons_of_pos (by simp [own]), ih others count]
      rfl
    | inline position =>
      rw [namesFrom, List.filter_cons_of_neg (by simp [inlineName_form])]
      exact ih apart (count + 1)

/-- An element loads an inline stylesheet, a linked one, or nothing. -/
theorem load_cases (base : Option Path) (element : Element) (position : Nat) :
    ((element.name == "style".toList) = true ∧ (element.name == "link".toList && linksStylesheet element) = false ∧
      loadOf? base element position = some (.inline position)) ∨
    ((element.name == "style".toList) = false ∧ (element.name == "link".toList && linksStylesheet element) = true ∧
      loadOf? base element position =
        some (.link (resolveHref base ((element.attribute? "href".toList).getD [])))) ∨
    ((element.name == "style".toList) = false ∧ (element.name == "link".toList && linksStylesheet element) = false ∧
      loadOf? base element position = none) := by
  unfold loadOf?
  split
  next style =>
    have other : (element.name == "link".toList) = false := by
      rw [beq_iff_eq.mp style]
      decide
    exact .inl ⟨style, by rw [other, Bool.false_and], rfl⟩
  next style =>
    split
    next linked => exact .inr (.inl ⟨Bool.not_eq_true _ ▸ style, linked, rfl⟩)
    next linked => exact .inr (.inr ⟨Bool.not_eq_true _ ▸ style, Bool.not_eq_true _ ▸ linked, rfl⟩)

theorem addresses_of_items (base : Option Path) (items : List (Element × Nat)) :
    addresses (items.filterMap fun item => loadOf? base item.1 item.2) =
      (items.filter fun item => item.1.name == "link".toList && linksStylesheet item.1).map
        fun item => resolveHref base ((item.1.attribute? "href".toList).getD []) := by
  induction items with
  | nil => rfl
  | cons item items ih =>
    rcases load_cases base item.1 item.2 with ⟨-, link, load⟩ | ⟨-, link, load⟩ | ⟨-, link, load⟩
    · simp only [List.filterMap_cons, List.filter_cons, load, link]
      exact ih
    · simp only [List.filterMap_cons, List.filter_cons, load, link, if_pos]
      exact congrArg _ ih
    · simp only [List.filterMap_cons, List.filter_cons, load, link]
      exact ih

theorem positions_of_items (base : Option Path) (items : List (Element × Nat)) :
    positions (items.filterMap fun item => loadOf? base item.1 item.2) =
      (items.filter fun item => item.1.name == "style".toList).map (·.2) := by
  induction items with
  | nil => rfl
  | cons item items ih =>
    rcases load_cases base item.1 item.2 with ⟨style, -, load⟩ | ⟨style, -, load⟩ | ⟨style, -, load⟩
    · simp only [List.filterMap_cons, List.filter_cons, load, style, if_pos]
      exact congrArg _ ih
    · simp only [List.filterMap_cons, List.filter_cons, load, style]
      exact ih
    · simp only [List.filterMap_cons, List.filter_cons, load, style]
      exact ih

theorem addresses_loads (page : Page) (base : Option Path) : addresses (page.loads base) = page.links base :=
  addresses_of_items base page.inOrder

theorem positions_loads (page : Page) (base : Option Path) : positions (page.loads base) =
    (page.inOrder.filter fun (element, _) => element.name == "style".toList).map (·.2) :=
  positions_of_items base page.inOrder

theorem names_inlineStyles (page : Page) : page.inlineStyles.map (·.name) =
    (List.range' 1 page.inlineStyles.length).map inlineName := by
  rw [inlineStyles, List.map_map, List.length_map, List.length_zipIdx, ← List.zipIdx_map_snd, List.map_map]
  rfl

theorem texts_inlineStyles (page : Page) (base : Option Path) : page.inlineStyles.map (·.text) =
    (positions (page.loads base)).map page.textOf := by
  rw [positions_loads, inlineStyles, List.map_map, List.map_map,
    ← List.zipIdx_map_fst 1 (page.inOrder.filter _), List.map_map, List.zipIdx_map_fst]
  rfl

theorem links_plain (anchored : ∀ directory ∈ base, Anchored directory) :
    ∀ address ∈ page.links base, hasInlineForm address = false := by
  intro address member
  obtain ⟨item, -, rfl⟩ := List.mem_map.mp member
  exact resolved_form anchored _

theorem count_of_filter {p : Text → Bool} {names : List Text} {name : Text} (single : (names.filter p).Nodup)
    (member : name ∈ names.filter p) : names.count name = 1 := by
  have chosen : p name = true := (List.mem_filter.mp member).2
  rw [← List.count_filter chosen]
  exact List.count_eq_one_of_mem single member

theorem rank_unique {names order : List Text} {name : Text} (linked : name ∈ order) :
    ∃! rank, (name, rank) ∈ fileRanks names order := by
  have member : name ∈ distinct (order ++ names) := mem_distinct.mpr (List.mem_append_left _ linked)
  obtain ⟨rank, found⟩ := List.mem_iff_getElem?.mp member
  refine ⟨rank, List.mk_mem_zipIdx_iff_getElem?.mpr found, ?_⟩
  intro other listed
  have again := List.mk_mem_zipIdx_iff_getElem?.mp listed
  obtain ⟨inside, -⟩ := List.getElem?_eq_some_iff.mp again
  exact (List.getElem?_inj inside (nodup_distinct _)).mp (again.trans found.symm)

end Orders

/-- With links resolved from a directory that is known from the root, or not resolved at all, the three lists agree. -/
theorem load_order_consistent (page : Page) (base : Option Path) (anchored : ∀ directory ∈ base, Anchored directory) :
    Consistent page base := by
  have plain : ∀ address ∈ addresses (page.loads base), hasInlineForm address = false := by
    rw [addresses_loads]
    exact links_plain anchored
  have count : (positions (page.loads base)).length = page.inlineStyles.length := by
    have same := congrArg List.length (texts_inlineStyles page base)
    rw [List.length_map, List.length_map] at same
    exact same.symm
  have inline : (page.loadOrder base).filter hasInlineForm = page.inlineStyles.map (·.name) := by
    rw [loadOrder, names_inline plain, count]
    exact (names_inlineStyles page).symm
  have distinct : ((page.loadOrder base).filter hasInlineForm).Nodup := by
    rw [inline, names_inlineStyles]
    exact List.Nodup.map (fun number other => inlineName_injective) List.nodup_range'
  have listed : ∀ source ∈ page.inlineStyles, source.name ∈ (page.loadOrder base).filter hasInlineForm := by
    intro source member
    rw [inline]
    exact List.mem_map_of_mem member
  refine {
    inline
    numbered := names_inlineStyles page
    texts := texts_inlineStyles page base
    linked := ?_
    apart := ?_
    single := fun source member => count_of_filter distinct (listed source member)
    ranked := fun source member names => rank_unique (List.mem_filter.mp (listed source member)).1 }
  · rw [loadOrder, names_linked plain, addresses_loads]
  · intro href number same
    have form := resolved_form anchored href
    rw [same, inlineName_form] at form
    cases form

/-- Two inline stylesheets, and links that imitate the names of both. -/
def menuPage : Text :=
  "<style>a\x7b\x7d</style><link rel='icon StyleSheet' href=' /<style #1> '><style></style><link rel=stylesheet href=<style%20#2?>".toList

theorem menu_order_consistent : ∃ page : Page, Page.parse? menuPage = some page ∧
    (∀ directory ∈ some (Path.parse "/site".toList), Anchored directory) ∧
    page.loadOrder (some (Path.parse "/site".toList)) =
      ["<style #1>".toList, "/site/<style ".toList, "<style #2>".toList, "/site/<style%20".toList] ∧
    Consistent page (some (Path.parse "/site".toList)) := by
  have read : (Page.parse? menuPage).map (fun page => page.loadOrder (some (Path.parse "/site".toList))) =
      some ["<style #1>".toList, "/site/<style ".toList, "<style #2>".toList, "/site/<style%20".toList] := by decide +kernel
  obtain ⟨page, parsed, order⟩ := Option.map_eq_some_iff.mp read
  have anchored : ∀ directory ∈ some (Path.parse "/site".toList), Anchored directory := by
    intro directory member
    obtain rfl := Option.some.inj member
    exact ⟨"site".toList, rfl⟩
  exact ⟨page, parsed, anchored, order, load_order_consistent page _ anchored⟩

end CascadeLens.Proofs.LoadOrder
