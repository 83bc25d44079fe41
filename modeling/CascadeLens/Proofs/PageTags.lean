import CascadeLens.Proofs.LoweredText
import CascadeLens.Proofs.ReaderPlaces

/-! The tags of markup are the elements of its page, in order. Their names are in lower case, and no blank is in the name
of an attribute. -/

namespace CascadeLens.Proofs.PageTags
open Text Page MarkupStretches TagStretches MarkupReading ReaderPlaces LoweredText

section Elements

/-- The elements of a page with their names and attributes. -/
def tagsIn (page : Page) : List (Text × List (Text × Text)) :=
  page.elements.toList.map fun element => (element.name, element.attributes)

theorem closeTo_page (builder : Builder) (name : Text) : (builder.closeTo name).page = builder.page := by
  unfold Builder.closeTo
  split <;> rfl

theorem leave_page (builder : Builder) (name : Text) : (builder.leave name).page = builder.page := by
  unfold Builder.leave
  split
  · rfl
  · exact closeTo_page builder name

theorem add_tags (builder : Builder) (next : Markup) : tagsIn (builder.add next).page = tagsIn builder.page ++ tagsOf [next] := by
  cases next with
  | enter name attributes closed =>
    have entered : (builder.add (.enter name attributes closed)).page = (builder.enter name attributes).page := by
      unfold Builder.add
      dsimp only
      split
      · exact leave_page _ name
      · split
        · exact closeTo_page _ name
        · rfl
    rw [entered]
    simp [Builder.enter, tagsIn, tagsOf]
  | leave name => simp [Builder.add, leave_page, tagsOf]
  | text content => simp [Builder.add, tagsIn, tagsOf]
  | marked => simp [Builder.add, tagsIn, tagsOf]

theorem fold_tags (markup : List Markup) (builder : Builder) :
    tagsIn (markup.foldl Builder.add builder).page = tagsIn builder.page ++ tagsOf markup := by
  induction markup generalizing builder with
  | nil => simp [tagsOf]
  | cons next markup ih =>
    rw [List.foldl_cons, ih, add_tags, List.append_assoc, ← tagsOf_append]
    rfl

theorem inOrder_elements (page : Page) : page.inOrder.map (·.1) = page.elements.toList.drop 1 := by
  unfold inOrder
  rw [List.map_drop, List.zipIdx_map_fst]

/-- The elements of a page are the tags of its markup. -/
theorem ofMarkup_tags (markup : List Markup) :
    ((ofMarkup markup).inOrder.map (·.1)).map (fun element => (element.name, element.attributes)) = tagsOf markup := by
  have all : tagsIn (markup.foldl Builder.add {}).page = (documentName, []) :: tagsOf markup := fold_tags markup {}
  rw [inOrder_elements, List.map_drop]
  change (tagsIn (markup.foldl Builder.add {}).page).drop 1 = tagsOf markup
  rw [all]
  rfl

end Elements

section Names

variable {s rest : Text} {c before : Char} {found : List (Text × List (Text × Text))} {attributes : List (Text × Text)}
  {markup : List Markup} {length : Nat}

/-- The names of a tag and of its attributes as markup has them. -/
structure Named (tag : Text × List (Text × Text)) : Prop where
  lowered : ∀ c ∈ tag.1, lowerChar c = c
  solid : ∀ pair ∈ tag.2, ∀ c ∈ pair.1, isBlank c = false

theorem mem_putAttribute {pair next : Text × Text} (member : pair ∈ putAttribute attributes next) :
    pair ∈ attributes ∨ pair = next := by
  induction attributes with
  | nil => exact .inr (List.mem_singleton.mp member)
  | cons first others ih =>
    rw [putAttribute] at member
    split at member
    · rcases List.mem_cons.mp member with same | later
      · exact .inr same
      · exact .inl (List.mem_cons_of_mem first later)
    · rcases List.mem_cons.mp member with rfl | later
      · exact .inl List.mem_cons_self
      · exact (ih later).imp_left (List.mem_cons_of_mem first)

theorem mem_fold_putAttribute {pair : Text × Text} {start : List (Text × Text)}
    (member : pair ∈ attributes.foldl putAttribute start) : pair ∈ start ∨ pair ∈ attributes := by
  induction attributes generalizing start with
  | nil => exact .inl member
  | cons next others ih =>
    rcases ih member with first | later
    · exact (mem_putAttribute first).imp_right fun same => List.mem_cons.mpr (.inl same)
    · exact .inr (List.mem_cons_of_mem next later)

theorem attributes_solid (reads : Page.attributes before s = (attributes, rest)) :
    ∀ pair ∈ attributes, ∀ c ∈ pair.1, isBlank c = false := by
  induction size : s.length using Nat.strongRecOn generalizing before s attributes with
  | ind size ih =>
    subst size
    cases s with
    | nil =>
      obtain ⟨rfl, -⟩ := Prod.mk.inj ((Page.attributes.eq_def before []).symm.trans reads)
      exact fun pair member => absurd member List.not_mem_nil
    | cons c t =>
      by_cases stops : (!allowsAttribute before || isGap c || c == '>') = true
      · rw [attributes_stop stops] at reads
        obtain ⟨rfl, -⟩ := Prod.mk.inj reads
        exact fun pair member => absurd member List.not_mem_nil
      · obtain ⟨more, read, gap, own⟩ := attributeRead_exists t
        rw [attributes_step stops own] at reads
        obtain ⟨rfl, behind⟩ := Prod.mk.inj reads
        intro pair member
        rcases List.mem_cons.mp member with rfl | later
        · refine solid_of_lower ?_
          intro d listed
          rcases List.mem_cons.mp listed with rfl | listed
          · simp only [isGap, Bool.or_eq_true, not_or, Bool.not_eq_true] at stops
            exact stops.1.2.1
          · rw [← own.named] at listed
            have part := List.all_eq_true.mp List.all_takeWhile d listed
            simp only [isAttributePart, isGap, Bool.and_eq_true, Bool.not_eq_true', Bool.or_eq_false_iff] at part
            exact part.1.1.1
        · exact ih (t.drop (more.length + read.2 + gap)).length (by rw [List.length_drop, List.length_cons]; omega)
            (Prod.ext rfl behind) rfl pair later

theorem entered_named {name : Text} {closed : Bool} (solid : ∀ pair ∈ attributes, ∀ c ∈ pair.1, isBlank c = false) :
    ∀ tag ∈ tagsOf [.enter (lower name) attributes closed], Named tag := by
  intro tag member
  obtain rfl : tag = (lower name, attributes.foldl putAttribute []) := List.mem_singleton.mp member
  refine ⟨lowered_of_lower name, fun pair listed => ?_⟩
  rcases mem_fold_putAttribute listed with none_there | given
  · cases none_there
  · exact solid pair given

theorem startTag_named (tagged : startTag s = .found markup length) : ∀ tag ∈ tagsOf markup, Named tag := by
  obtain ⟨name, gap, attributes, rest, own⟩ : ∃ name gap attributes rest, StartRead s name gap attributes rest :=
    ⟨_, _, _, _, rfl, rfl, rfl⟩
  rw [startTag_at own] at tagged
  have solid := attributes_solid own.listed
  unfold startEnd at tagged
  dsimp only at tagged
  split at tagged
  · cases tagged
  · obtain ⟨rfl, -⟩ := Construct.found.inj tagged
    exact entered_named solid
  · obtain ⟨rfl, -⟩ := Construct.found.inj tagged
    exact entered_named solid
  · split at tagged
    · cases tagged
    · obtain ⟨rfl, -⟩ := Construct.found.inj tagged
      exact fun tag member => absurd member List.not_mem_nil

theorem endTag_tags (tagged : endTag s = .found markup length) : tagsOf markup = [] := by
  unfold endTag at tagged
  dsimp only at tagged
  split at tagged
  · cases tagged
  · split at tagged
    · obtain ⟨rfl, -⟩ := Construct.found.inj tagged
      rfl
    · split at tagged
      · split at tagged <;> (obtain ⟨rfl, -⟩ := Construct.found.inj tagged; rfl)
      · obtain ⟨rfl, -⟩ := Construct.found.inj tagged
        rfl

theorem markedSection_tags (tagged : markedSection s = .found markup length) : tagsOf markup = [] := by
  obtain ⟨name, behind, brackets, read⟩ := markedSection_iff.mp tagged
  rw [read.read]
  split <;> rfl

theorem passedOver_tags (tagged : passedOver s = .found markup length) : tagsOf markup = [] := by
  unfold passedOver at tagged
  dsimp only at tagged
  split at tagged
  · cases tagged
  · obtain ⟨rfl, -⟩ := Construct.found.inj tagged
    rfl

theorem named_of_none (none_there : tagsOf markup = []) : ∀ tag ∈ tagsOf markup, Named tag := by
  rw [none_there]
  exact fun tag member => absurd member List.not_mem_nil

theorem construct_named (found : construct s = .found markup length) : ∀ tag ∈ tagsOf markup, Named tag := by
  unfold construct at found
  split at found
  · cases found
  · split at found
    next ended =>
      obtain ⟨rfl, -⟩ := Construct.found.inj found
      exact named_of_none (endTag_tags ended)
    next other => exact absurd found (other _ _)
  · split at found
    · cases found
    · obtain ⟨rfl, -⟩ := Construct.found.inj found
      exact named_of_none rfl
  · exact named_of_none (passedOver_tags found)
  · split at found
    next ended =>
      obtain ⟨rfl, -⟩ := Construct.found.inj found
      exact named_of_none (markedSection_tags ended)
    next other => exact absurd found (other _ _)
  · exact named_of_none (passedOver_tags found)
  · split at found
    · exact startTag_named found
    · obtain ⟨rfl, -⟩ := Construct.found.inj found
      exact named_of_none rfl

theorem textReference_tags {raw : Option Text} {stop : Bool} (taken : textReference s = .take markup raw length stop) :
    tagsOf markup = [] := by
  cases s with
  | nil => cases taken
  | cons c rest =>
    by_cases sign : c = '#'
    · subst sign
      rw [textReference_number] at taken
      unfold numberMove at taken
      dsimp only at taken
      split at taken
      · split at taken
        · obtain ⟨rfl, -⟩ := Move.take.inj taken
          rfl
        · cases taken
      · obtain ⟨rfl, -⟩ := Move.take.inj taken
        rfl
    by_cases letter : c.isAlpha = true
    · rw [textReference_letter letter] at taken
      dsimp only at taken
      split at taken
      · cases taken
      · obtain ⟨rfl, -⟩ := Move.take.inj taken
        rfl
    · rw [textReference_other sign letter] at taken
      obtain ⟨rfl, -⟩ := Move.take.inj taken
      rfl

theorem move_named {final stop : Bool} {raw raw' : Option Text} (taken : move final raw c rest = .take markup raw' length stop) :
    ∀ tag ∈ tagsOf markup, Named tag := by
  unfold move at taken
  split at taken
  · split at taken
    · cases taken
    · dsimp only at taken
      obtain ⟨rfl, -⟩ := Move.take.inj taken
      refine named_of_none ?_
      rw [tagsOf_append]
      split <;> rfl
  · split at taken
    · split at taken
      next found =>
        obtain ⟨rfl, -⟩ := Move.take.inj taken
        exact construct_named found
      · cases taken
      · split at taken
        · obtain ⟨rfl, -⟩ := Move.take.inj taken
          exact named_of_none rfl
        · cases taken
    · split at taken
      · exact named_of_none (textReference_tags taken)
      · obtain ⟨rfl, -⟩ := Move.take.inj taken
        exact named_of_none rfl

theorem pass_named {final : Bool} {raw raw' : Option Text} {left : Text} (passed : pass final raw s = some (markup, raw', left)) :
    ∀ tag ∈ tagsOf markup, Named tag := by
  induction size : s.length using Nat.strongRecOn generalizing raw raw' left s markup with
  | ind size ih =>
    subst size
    rw [pass.eq_def] at passed
    split at passed
    · obtain ⟨rfl, -⟩ := Prod.mk.inj (Option.some.inj passed)
      exact named_of_none rfl
    next c rest =>
      split at passed
      · obtain ⟨rfl, -⟩ := Prod.mk.inj (Option.some.inj passed)
        exact named_of_none rfl
      · cases passed
      next first raw length stop moved =>
        split at passed
        · obtain ⟨rfl, -⟩ := Prod.mk.inj (Option.some.inj passed)
          exact move_named moved
        · obtain ⟨⟨more, raw'', left'⟩, behind, same⟩ := Option.map_eq_some_iff.mp passed
          obtain ⟨rfl, -⟩ := Prod.mk.inj same
          intro tag member
          rw [tagsOf_append] at member
          rcases List.mem_append.mp member with here | later
          · exact move_named moved tag here
          · exact ih (rest.drop length).length (by rw [List.length_drop, List.length_cons]; omega) behind rfl tag later

theorem tagsFrom_named {raw : Option Text} (read : tagsFrom? raw s = some found) : ∀ tag ∈ found, Named tag := by
  unfold tagsFrom? at read
  split at read
  · cases read
  next first raw left passed =>
    obtain ⟨⟨second, raw', left'⟩, passed', rfl⟩ := Option.map_eq_some_iff.mp read
    intro tag member
    rcases List.mem_append.mp member with here | later
    · exact pass_named passed tag here
    · exact pass_named passed' tag later

end Names

end CascadeLens.Proofs.PageTags
