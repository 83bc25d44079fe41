import CascadeLens.Proofs.SqueezedText
import CascadeLens.Stylesheet.Layout
import Mathlib.Data.List.TakeWhile

/-! Blanks that are set into a sheet and taken out of it. Beside the marks of a sheet, outside of its strings and
escapes, blanks may come and go; laying out a text does nothing else to it, as long as no mark stands inside of a
string or an escape. -/

namespace CascadeLens.Proofs.SheetAiring
open Text TextShape NestReading SqueezedText

/-- What a reader of a sheet without line comments is in the middle of. -/
inductive Mask where
  | plain
  | commentMark
  | comment
  | commentEnd
  | string (quote : Char)
  | stringEscape (quote : Char)
  | escape
  /-- Where an interpolation has begun. -/
  | beyond
deriving Repr, DecidableEq

namespace Mask

/-- The mask behind a character that another one follows. -/
def next (mask : Mask) (c : Char) (ahead : Option Char) : Mask :=
  match mask with
  | .plain =>
    if c == '/' && ahead == some '*' then .commentMark
    else if isQuote c then .string c
    else if c == '\\' then .escape
    else if c == '#' && ahead == some '\x7b' then .beyond
    else .plain
  | .commentMark => .comment
  | .comment => if c == '*' && ahead == some '/' then .commentEnd else .comment
  | .commentEnd => .plain
  | .string quote => if c == '\\' then .stringEscape quote else if c == quote then .plain else .string quote
  | .stringEscape quote => .string quote
  | .escape => .plain
  | .beyond => .beyond

/-- Whether a character is left where it is when blanks are set beside the marks: none of these stands in a string
or, if it is a brace, behind a backslash. The rest is true of every text that is read. -/
def spares (mask : Mask) (c : Char) : Bool :=
  match mask with
  | .plain | .comment => true
  | .commentMark => c == '*'
  | .commentEnd => c == '/'
  | .string quote => isQuote quote && !isMark c && c != '\n'
  | .stringEscape quote => isQuote quote && !isMark c
  | .escape => c != '\x7b' && c != '\x7d'
  | .beyond => false

/-- Where blanks count for nothing but the end of a word. -/
def idle (mask : Mask) : Bool := mask == .plain || mask == .comment

/-- Whether more blanks behind a character count for nothing at all. -/
def settles (mask : Mask) (c : Char) : Bool := (mask.idle || mask == .escape) && (isBlank c || isMark c)

end Mask

/-- Text without interpolations whose marks all stand outside of strings, and whose braces are not escaped. -/
def Spared : Mask → Text → Prop
  | _, [] => True
  | mask, c :: rest => mask.spares c = true ∧ Spared (mask.next c rest.head?) rest

instance decidableSpared : (mask : Mask) → (s : Text) → Decidable (Spared mask s)
  | _, [] => .isTrue trivial
  | mask, c :: rest =>
    have := decidableSpared (mask.next c rest.head?) rest
    inferInstanceAs (Decidable (_ ∧ _))

/-- Two texts of which the second has other blanks than the first one: beside marks, behind other blanks, in front of
braces and at the end. -/
inductive Aired : Mask → Bool → Text → Text → Prop
  | ended {mask lag s} (white : ∀ c ∈ s, isBlank c = true) : Aired mask lag s []
  | both {mask lag c s t} (ahead : mask.next c t.head? = mask.next c s.head?)
    (rest : Aired (mask.next c s.head?) (mask.settles c) s t) : Aired mask lag (c :: s) (c :: t)
  | drop {mask c s t} (idle : mask.idle = true) (white : isBlank c = true) (rest : Aired mask true s t) :
    Aired mask true (c :: s) t
  | add {mask c s t} (idle : mask.idle = true) (white : isBlank c = true) (rest : Aired mask true s t) :
    Aired mask true s (c :: t)
  | brace {mask lag c d s t} (idle : mask.idle = true) (white : isBlank d = true) (brace : c = '\x7b' ∨ c = '\x7d')
    (rest : Aired mask true s t) : Aired mask lag (c :: s) (d :: c :: t)

section Masks

variable {mask : Mask} {lag : Bool} {c : Char} {s t white : Text} {ahead ahead' : Option Char}

theorem idle_cases (idle : mask.idle = true) : mask = .plain ∨ mask = .comment := by
  simpa [Mask.idle] using idle

theorem blank_apart (blank : isBlank c = true) : c ≠ '/' ∧ c ≠ '*' ∧ c ≠ '#' ∧ c ≠ '\\' ∧ c ≠ '"' ∧ c ≠ '\'' := by
  refine ⟨?_, ?_, ?_, ?_, ?_, ?_⟩ <;> rintro rfl <;> exact absurd blank (by decide)

theorem next_blank (idle : mask.idle = true) (blank : isBlank c = true) (ahead : Option Char) : mask.next c ahead = mask := by
  obtain ⟨slash, star, hash, escape, double, single⟩ := blank_apart blank
  rcases idle_cases idle with rfl | rfl <;> simp [Mask.next, isQuote, slash, star, hash, escape, double, single]

theorem next_brace (idle : mask.idle = true) (brace : c = '\x7b' ∨ c = '\x7d') (ahead : Option Char) :
    mask.next c ahead = mask := by
  rcases idle_cases idle with rfl | rfl <;> rcases brace with rfl | rfl <;> rfl

theorem spared_blank (idle : mask.idle = true) (blank : isBlank c = true) : Spared mask (c :: s) ↔ Spared mask s := by
  have open' : mask.spares c = true := by rcases idle_cases idle with rfl | rfl <;> rfl
  rw [Spared, next_blank idle blank, open', eq_self, true_and]

/-- Of what comes next only two characters matter where no interpolation begins. -/
theorem next_ahead (star : ahead = some '*' ↔ ahead' = some '*') (slash : ahead = some '/' ↔ ahead' = some '/')
    (calm : mask.next c ahead ≠ .beyond) (calm' : mask.next c ahead' ≠ .beyond) : mask.next c ahead = mask.next c ahead' := by
  cases mask <;> simp only [Mask.next, Bool.and_eq_true, beq_iff_eq, star, slash] at calm calm' ⊢
  split
  · rfl
  · split
    · rfl
    · split
      · rfl
      · rw [if_neg, if_neg]
        · rintro begins
          simp_all
        · rintro begins
          simp_all

/-- Spared text goes on where no interpolation begins. -/
theorem Spared.calm (spared : Spared mask (c :: s)) : mask.next c s.head? ≠ .beyond := by
  obtain ⟨own, rest⟩ := spared
  intro beyond
  cases s with
  | cons d s =>
    rw [beyond] at rest
    exact absurd rest.1 Bool.false_ne_true
  | nil => cases mask <;> simp [Mask.next] at beyond <;> grind [Mask.spares]

theorem Aired.spared (aired : Aired mask lag s t) (spared : Spared mask s) : Spared mask t := by
  induction aired with
  | ended => trivial
  | both ahead rest ih =>
    refine ⟨spared.1, ?_⟩
    rw [ahead]
    exact ih spared.2
  | drop idle white rest ih => exact ih ((spared_blank idle white).mp spared)
  | add idle white rest ih => exact (spared_blank idle white).mpr (ih spared)
  | brace idle white brace rest ih =>
    obtain ⟨spares, behind⟩ := spared
    rw [next_brace idle brace] at behind
    refine (spared_blank idle white).mpr ⟨spares, ?_⟩
    rw [next_brace idle brace]
    exact ih behind

theorem Aired.drops (idle : mask.idle = true) (blanks : ∀ c ∈ white, isBlank c = true) (aired : Aired mask true s t) :
    Aired mask true (white ++ s) t := by
  induction white with
  | nil => exact aired
  | cons c white ih =>
    obtain ⟨own, others⟩ := List.forall_mem_cons.mp blanks
    exact .drop idle own (ih others)

theorem spared_behind (idle : mask.idle = true) (blanks : ∀ c ∈ white, isBlank c = true) (spared : Spared mask (white ++ s)) :
    Spared mask s := by
  induction white with
  | nil => exact spared
  | cons c white ih =>
    obtain ⟨own, others⟩ := List.forall_mem_cons.mp blanks
    exact ih others ((spared_blank idle own).mp spared)

end Masks

section Marks

variable {mask : Mask} {lag : Bool} {c : Char} {s t white : Text} {ahead ahead' : Option Char}

theorem Aired.adds (idle : mask.idle = true) (blanks : ∀ c ∈ white, isBlank c = true) (aired : Aired mask true s t) :
    Aired mask true s (white ++ t) := by
  induction white with
  | nil => exact aired
  | cons c white ih =>
    obtain ⟨own, others⟩ := List.forall_mem_cons.mp blanks
    exact .add idle own (ih others)

theorem mark_cases (mark : isMark c = true) : c = '\x7b' ∨ c = '\x7d' ∨ c = ';' ∨ c = ',' := by
  simpa [isMark, or_assoc] using mark

/-- A mark that is spared stands outside of strings, and none is looked ahead from. -/
theorem next_mark (mark : isMark c = true) (spared : mask.spares c = true) :
    (mask.next c ahead).idle = true ∧ mask.settles c = true ∧ mask.next c ahead = mask.next c ahead' := by
  rcases mark_cases mark with rfl | rfl | rfl | rfl <;> cases mask <;>
    simp_all [Mask.spares, Mask.next, Mask.idle, Mask.settles, isQuote]

theorem idle_brace (brace : c = '\x7b' ∨ c = '\x7d') (spared : mask.spares c = true) : mask.idle = true := by
  rcases brace with rfl | rfl <;> cases mask <;> simp_all [Mask.spares, Mask.idle, isMark]

/-- Behind a mark blanks may follow. -/
theorem Aired.behind_mark (mark : isMark c = true) (spared : Spared mask (c :: s)) (blanks : ∀ d ∈ white, isBlank d = true)
    (rest : Aired (mask.next c s.head?) true s t) (lag : Bool) : Aired mask lag (c :: s) (c :: (white ++ t)) := by
  obtain ⟨idle, settled, same⟩ := @next_mark mask c s.head? (white ++ t).head? mark spared.1
  refine .both same.symm ?_
  rw [settled]
  exact rest.adds idle blanks

end Marks

section Stages

variable {mask : Mask} {s t : Text} {c : Char}

/-- A blank, or nothing, is as good as another to be looked ahead to. -/
theorem next_no_mark {ahead ahead' : Option Char} {c : Char} (solid : ∀ d ∈ ahead, d ∉ ['*', '/', '\x7b'])
    (solid' : ∀ d ∈ ahead', d ∉ ['*', '/', '\x7b']) (mask : Mask) : mask.next c ahead = mask.next c ahead' := by
  have apart : ∀ mark ∈ ['*', '/', '\x7b'], ahead ≠ some mark := by
    rintro mark listed rfl
    exact solid mark rfl listed
  have apart' : ∀ mark ∈ ['*', '/', '\x7b'], ahead' ≠ some mark := by
    rintro mark listed rfl
    exact solid' mark rfl listed
  simp only [List.forall_mem_cons, List.not_mem_nil, false_implies, implies_true, and_true] at apart apart'
  cases mask <;> simp [Mask.next, apart, apart']

/-- Text that is laid out begins as before, but for a blank in front of a brace. -/
theorem laid_first (c : Char) (t : Text) : ((c = '\x7b' ∨ c = '\x7d') ∧ ∃ d, isBlank d = true ∧ (layOutChar c ++ t).head? = some d) ∨
    (c ≠ '\x7b' ∧ (layOutChar c ++ t).head? = some c) := by
  unfold layOutChar
  split_ifs with opening semicolon closing
  · exact .inl ⟨.inl (beq_iff_eq.mp opening), ' ', by decide, rfl⟩
  · obtain rfl := beq_iff_eq.mp semicolon
    exact .inr ⟨by decide, rfl⟩
  · exact .inl ⟨.inr (beq_iff_eq.mp closing), '\n', by decide, rfl⟩
  · exact .inr ⟨fun same => opening (beq_iff_eq.mpr same), rfl⟩

theorem laid_head {mark : Char} (plain : mark = '*' ∨ mark = '/') :
    (s.flatMap layOutChar).head? = some mark ↔ s.head? = some mark := by
  cases s with
  | nil => rfl
  | cons c rest =>
    rw [List.flatMap_cons, List.head?_cons]
    obtain ⟨brace, d, white, first⟩ | ⟨-, first⟩ := laid_first c (rest.flatMap layOutChar)
    · obtain ⟨slash, star, -⟩ := blank_apart white
      rw [first, Option.some.injEq, Option.some.injEq]
      rcases plain with rfl | rfl <;> rcases brace with rfl | rfl <;> simp [slash, star]
    · rw [first]

theorem laid_no_brace : (s.flatMap layOutChar).head? ≠ some '\x7b' := by
  cases s with
  | nil => nofun
  | cons c rest =>
    rw [List.flatMap_cons]
    obtain ⟨-, d, white, first⟩ | ⟨other, first⟩ := laid_first c (rest.flatMap layOutChar)
    · rw [first]
      rintro ⟨⟩
      exact absurd white (by decide)
    · rw [first]
      exact fun same => other (Option.some.inj same)

theorem next_laid (spared : Spared mask (c :: s)) : mask.next c (s.flatMap layOutChar).head? = mask.next c s.head? := by
  refine next_ahead (laid_head (.inl rfl)) (laid_head (.inr rfl)) ?_ spared.calm
  intro beyond
  have none := @laid_no_brace s
  have own := spared.1
  cases mask <;> simp only [Mask.next] at beyond <;> grind [Mask.spares]

/-- Around each brace and behind each semicolon there are more blanks. -/
theorem aired_lines (spared : Spared mask s) (lag : Bool) : Aired mask lag s (s.flatMap layOutChar) := by
  induction s generalizing mask lag with
  | nil => exact .ended nofun
  | cons c rest ih =>
    have indent : ∀ c ∈ "\n  ".toList, isBlank c = true := by decide
    have feed : ∀ c ∈ "\n".toList, isBlank c = true := by decide
    rw [List.flatMap_cons, layOutChar]
    split_ifs with opening semicolon closing
    · obtain rfl := beq_iff_eq.mp opening
      have idle := idle_brace (.inl rfl) spared.1
      have behind := spared.2
      rw [next_brace idle (.inl rfl)] at behind
      exact .brace (d := ' ') idle (by decide) (.inl rfl) ((ih behind true).adds idle indent)
    · obtain rfl := beq_iff_eq.mp semicolon
      exact .behind_mark rfl spared indent (ih spared.2 true) lag
    · obtain rfl := beq_iff_eq.mp closing
      have idle := idle_brace (.inr rfl) spared.1
      have behind := spared.2
      rw [next_brace idle (.inr rfl)] at behind
      exact .brace (d := '\n') idle (by decide) (.inr rfl) ((ih behind true).adds idle feed)
    · exact .both (next_laid spared) (ih spared.2 _)

theorem breakAtCommas_head (s : Text) : (breakAtCommas s).head? = s.head? := by
  unfold breakAtCommas
  split
  · rfl
  · split
    next comma => rw [beq_iff_eq.mp comma]; rfl
    next => rfl

/-- Behind each comma there is a line end in place of the blanks. -/
theorem aired_commas (spared : Spared mask s) (lag : Bool) : Aired mask lag s (breakAtCommas s) := by
  induction s using breakAtCommas.induct generalizing mask lag with
  | case1 =>
    rw [breakAtCommas]
    exact .ended nofun
  | case2 c rest comma ih =>
    obtain rfl := beq_iff_eq.mp comma
    rw [breakAtCommas, if_pos comma]
    have idle := (@next_mark mask ',' rest.head? none rfl spared.1).1
    have blanks : ∀ c ∈ rest.takeWhile isBlank, isBlank c = true :=
      fun c member => List.all_eq_true.mp List.all_takeWhile c member
    have whole : rest = rest.takeWhile isBlank ++ rest.dropWhile isBlank := List.takeWhile_append_dropWhile.symm
    have behind : Spared (mask.next ',' rest.head?) (rest.dropWhile isBlank) := spared_behind idle blanks (whole ▸ spared.2)
    have onward := (ih behind true).drops idle blanks
    rw [← whole] at onward
    have feed : ∀ c ∈ ['\n'], isBlank c = true := by decide
    exact .behind_mark rfl spared feed onward lag
  | case3 c rest other ih =>
    rw [breakAtCommas, if_neg other]
    exact .both (by rw [breakAtCommas_head]) (ih spared.2 _)

theorem dropBlankLines_head (s : Text) : (dropBlankLines s).head? = s.head? := by
  unfold dropBlankLines
  split
  · rfl
  · split
    next feed => rw [beq_iff_eq.mp feed]; rfl
    next => rfl

/-- In a string no blank line follows. -/
theorem spared_string {quote : Char} (spared : Spared (.string quote) s) : '\n' ∉ s.takeWhile isBlank := by
  induction s with
  | nil => nofun
  | cons c rest ih =>
    obtain ⟨own, later⟩ := spared
    simp only [Mask.spares, Bool.and_eq_true, bne_iff_ne, ne_eq] at own
    obtain ⟨⟨quotes, -⟩, feed⟩ := own
    cases white : isBlank c
    · rw [List.takeWhile_cons_of_neg (by simp [white])]
      exact List.not_mem_nil
    · have inside : Mask.next (.string quote) c rest.head? = .string quote := by
        have escape : c ≠ '\\' := (blank_apart white).2.2.2.1
        have other : c ≠ quote := by
          rintro rfl
          exact absurd (ordinary_of_isBlank white) (by simp [ordinary, quotes])
        simp [Mask.next, escape, other]
      rw [inside] at later
      rw [List.takeWhile_cons_of_pos white, List.mem_cons, not_or]
      exact ⟨Ne.symm feed, ih later⟩

/-- How many of the characters behind a line end belong to blank lines. -/
def blankLines (rest : Text) : Nat := ((rest.takeWhile isBlank).reverse.dropWhile (· != '\n')).length

theorem dropBlankLines_feed (rest : Text) :
    dropBlankLines ('\n' :: rest) = '\n' :: dropBlankLines (rest.drop (blankLines rest)) := by
  rw [dropBlankLines, if_pos (beq_self_eq_true '\n')]
  rfl

theorem blankLines_white (rest : Text) : ∀ c ∈ rest.take (blankLines rest), isBlank c = true := by
  have within : blankLines rest ≤ (rest.takeWhile isBlank).length := by
    have shorter := (List.dropWhile_suffix (· != '\n') (l := (rest.takeWhile isBlank).reverse)).length_le
    rwa [List.length_reverse] at shorter
  intro c member
  have early : rest.take (blankLines rest) <+: rest.takeWhile isBlank :=
    List.prefix_of_prefix_length_le (List.take_prefix _ _) (List.takeWhile_prefix _)
      (le_trans (List.length_take_le _ _) within)
  exact List.all_eq_true.mp List.all_takeWhile c (early.subset member)

theorem blankLines_string {quote : Char} (spared : Spared (.string quote) s) : blankLines s = 0 := by
  rw [blankLines, List.length_eq_zero_iff, List.dropWhile_eq_nil_iff]
  intro c member
  rw [bne_iff_ne]
  rintro rfl
  exact spared_string spared (List.mem_reverse.mp member)

/-- A line end stands in a string only if it is escaped. -/
theorem feed_cases (spares : mask.spares '\n' = true) (ahead : Option Char) :
    (∃ quote, mask.next '\n' ahead = .string quote) ∨ ((mask.next '\n' ahead).idle = true ∧ mask.settles '\n' = true) := by
  have white : isBlank '\n' = true := by decide
  cases mask <;> simp_all [Mask.spares, Mask.next, Mask.idle, Mask.settles, isQuote]

/-- Blank lines are dropped behind a line end. -/
theorem aired_blank_lines (spared : Spared mask s) (lag : Bool) : Aired mask lag s (dropBlankLines s) := by
  induction s using dropBlankLines.induct generalizing mask lag with
  | case1 =>
    rw [dropBlankLines]
    exact .ended nofun
  | case2 c rest feed =>
    rename_i onward
    obtain rfl := beq_iff_eq.mp feed
    have ih : ∀ {mask}, Spared mask (rest.drop (blankLines rest)) → ∀ lag,
        Aired mask lag (rest.drop (blankLines rest)) (dropBlankLines (rest.drop (blankLines rest))) := onward
    rw [dropBlankLines_feed]
    have same : ∀ ahead, mask.next '\n' ahead = mask.next '\n' rest.head? := by
      intro ahead
      cases mask <;> rfl
    refine .both (same _) ?_
    obtain ⟨spares, behind⟩ := spared
    rcases feed_cases spares rest.head? with ⟨quote, string⟩ | ⟨idle, settled⟩
    · rw [string] at behind ⊢
      rw [blankLines_string behind] at ih ⊢
      exact ih behind _
    · have white := blankLines_white rest
      have whole : rest.take (blankLines rest) ++ rest.drop (blankLines rest) = rest := List.take_append_drop _ _
      have onward := (ih (spared_behind idle white (whole.symm ▸ behind)) true).drops idle white
      rw [whole] at onward
      rw [settled]
      exact onward
  | case3 c rest other ih =>
    rw [dropBlankLines, if_neg other]
    exact .both (by rw [dropBlankLines_head]) (ih spared.2 _)

theorem aired_end {white : Text} (blanks : ∀ c ∈ white, isBlank c = true) (mask : Mask) (lag : Bool) (s : Text) :
    Aired mask lag (s ++ white) s := by
  induction s generalizing mask lag with
  | nil => exact .ended blanks
  | cons c rest ih =>
    refine .both ?_ (ih _ _)
    cases rest with
    | cons d more => rfl
    | nil =>
      refine next_no_mark (fun _ found => by cases found) ?_ mask
      intro d found listed
      have blank := blanks d (List.mem_of_head? found)
      have solid : ∀ mark ∈ ['*', '/', '\x7b'], isBlank mark = false := by decide
      exact absurd (blank.symm.trans (solid d listed)) (by decide)

theorem aired_trim (s : Text) : Aired .plain true s (trim s) := by
  obtain ⟨before, after, whole, white, white'⟩ := trim_spec s
  have back := (aired_end white' .plain true (trim s)).drops rfl white
  rwa [← whole] at back

end Stages

end CascadeLens.Proofs.SheetAiring
