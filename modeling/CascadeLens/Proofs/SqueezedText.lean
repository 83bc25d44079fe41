import CascadeLens.Proofs.DeclarationQuotes
import CascadeLens.Proofs.SpacedText

/-! Text without the blanks outside of its strings. Squeezing goes well with trimming and with joining words, and
texts that look the same but for such blanks, and for where words begin, spell the same at-rules. -/

namespace CascadeLens.Proofs.SqueezedText
open Text TextShape SpacedText NestReading DeclarationQuotes

/-- A text behind what a nest has read, without the blanks outside of strings. -/
def squeezeFrom (nest : Nest) : Text → Text
  | [] => []
  | c :: rest =>
    if isBlank c && nest.quote.isNone then squeezeFrom (nest.step c) rest else c :: squeezeFrom (nest.step c) rest

def squeeze (s : Text) : Text := squeezeFrom {} s

section Squeezing

variable {nest : Nest} {s t : Text} {c : Char}

theorem squeezeFrom_solid (solid : isBlank c = false) (nest : Nest) (s : Text) :
    squeezeFrom nest (c :: s) = c :: squeezeFrom (nest.step c) s := by
  simp [squeezeFrom, solid]

theorem squeezeFrom_all (solid : ∀ c ∈ s, isBlank c = false) (nest : Nest) : squeezeFrom nest s = s := by
  induction s generalizing nest with
  | nil => rfl
  | cons c s ih =>
    obtain ⟨own, others⟩ := List.forall_mem_cons.mp solid
    rw [squeezeFrom_solid own, ih others]

theorem squeezeFrom_append (nest : Nest) (s t : Text) :
    squeezeFrom nest (s ++ t) = squeezeFrom nest s ++ squeezeFrom (nest.read s) t := by
  induction s generalizing nest with
  | nil => rfl
  | cons c s ih =>
    rw [List.cons_append, squeezeFrom, squeezeFrom, ih]
    split <;> rfl

theorem mem_squeezeFrom (member : c ∈ squeezeFrom nest s) : c ∈ s := by
  induction s generalizing nest with
  | nil => cases member
  | cons d s ih =>
    rw [squeezeFrom] at member
    split at member
    · exact List.mem_cons_of_mem _ (ih member)
    · rcases List.mem_cons.mp member with rfl | later
      · exact List.mem_cons_self
      · exact List.mem_cons_of_mem _ (ih later)

theorem squeezeFrom_blanks (closed : nest.quote = none) (white : ∀ c ∈ s, isBlank c = true) : squeezeFrom nest s = [] := by
  induction s generalizing nest with
  | nil => rfl
  | cons c s ih =>
    obtain ⟨own, others⟩ := List.forall_mem_cons.mp white
    have quoting : Quoting nest := by
      intro quote found
      cases closed.symm.trans found
    have after : (nest.step c).quote = none := by rw [quoting.step_ordinary (ordinary_of_isBlank own), closed]
    simp [squeezeFrom, own, closed, ih after others]

theorem squeeze_trimmed (trimmed : Trimmed s) : Trimmed (squeeze s) := by
  constructor
  · intro c found
    cases s with
    | nil => cases found
    | cons d rest =>
      have solid := trimmed.first d rfl
      rw [squeeze, squeezeFrom_solid solid] at found
      exact Option.some.inj found ▸ solid
  · intro c found
    rcases List.eq_nil_or_concat s with rfl | ⟨front, d, rfl⟩
    · cases found
    · have solid := trimmed.last d (by simp)
      rw [List.concat_eq_append, squeeze, squeezeFrom_append, squeezeFrom_solid solid] at found
      obtain rfl : d = c := by simpa [squeezeFrom] using found
      exact solid

theorem squeeze_trim (s : Text) : squeeze (trim s) = trim (squeeze s) := by
  obtain ⟨before, after, whole, white, white'⟩ := trim_spec s
  have front : squeeze before = [] := squeezeFrom_blanks rfl white
  have fresh : Nest.read {} before = {} := read_ordinary (fun c member => ordinary_of_isBlank (white c member)) 0
  have back : ∀ c ∈ squeezeFrom (Nest.read {} (trim s)) after, isBlank c = true :=
    fun c member => white' c (mem_squeezeFrom member)
  calc
    squeeze (trim s) = trim (squeeze (trim s)) := (trim_eq_self (squeeze_trimmed (trim_trimmed s))).symm
    _ = trim (squeeze (trim s) ++ squeezeFrom (Nest.read {} (trim s)) after) := (trim_before_blanks back _).symm
    _ = trim (squeeze s) := by
      conv_rhs => rw [whole, squeeze, squeezeFrom_append, ← squeeze, front, fresh, squeezeFrom_append]
      rfl

/-- Inside of a string the blanks are joined before and after squeezing, and outside they go in any case. -/
theorem squeezeFrom_collapse (quoting : Quoting nest) {lag : Bool} (whole : lag = true → nest.escaped = false) :
    squeezeFrom nest (collapseFrom lag s) = collapseFrom (lag && nest.quote.isSome) (squeezeFrom nest s) := by
  induction s generalizing nest lag with
  | nil => simp [squeezeFrom]
  | cons c s ih =>
    cases white : isBlank c
    · rw [collapseFrom_solid white, squeezeFrom_solid white, squeezeFrom_solid white, collapseFrom_solid white]
      exact congrArg (c :: ·) (ih (quoting.step c) nofun)
    · have same : nest.step ' ' = nest.step c := by
        rw [quoting.step_ordinary (ordinary_of_isBlank white), quoting.step_ordinary (c := ' ') (by decide)]
      have after := quoting.step_ordinary (ordinary_of_isBlank white)
      have onward := @ih (nest.step c) (quoting.step c) true fun _ => by rw [after]
      rw [Bool.true_and, show (nest.step c).quote = nest.quote by rw [after]] at onward
      cases lag with
      | true =>
        have still : nest.step c = nest := by
          obtain ⟨depth, quote, escaped⟩ := nest
          obtain rfl : escaped = false := whole rfl
          exact after
        rw [still] at onward
        rw [collapseFrom_lag white, onward, squeezeFrom, still, white]
        cases quoted : nest.quote with
        | none => simp
        | some quote => simp [collapseFrom_lag white]
      | false =>
        have first : collapseFrom false (c :: s) = ' ' :: collapseFrom true s := collapse_blank white s
        rw [first, squeezeFrom, squeezeFrom, same, onward, white, show isBlank ' ' = true by decide]
        cases quoted : nest.quote with
        | none => simp
        | some quote => simp [collapseFrom, white]

theorem squeeze_spaced (s : Text) : squeeze (spaced s) = spaced (squeeze s) := by
  have joined := @squeezeFrom_collapse {} (trim s) nofun false nofun
  rw [spaced_eq_collapse, spaced_eq_collapse, ← squeeze_trim]
  exact joined

end Squeezing

/-- The marks that blanks may be set beside without parting words. -/
def isMark (c : Char) : Bool := c == '\x7b' || c == '\x7d' || c == ';' || c == ','

/-- How a text is read, and whether a word would begin with the character that comes next, as far as the one before
it tells. -/
structure Strand where
  nest : Nest := {}
  lag : Bool := true

namespace Strand

def step (strand : Strand) (c : Char) : Strand :=
  ⟨strand.nest.step c, strand.nest.quote.isNone && (isBlank c || isMark c)⟩

def read (strand : Strand) (s : Text) : Strand := s.foldl step strand

end Strand

/-- A squeezed text, with the letters marked that stand apart from those before. -/
def beadsFrom (strand : Strand) : Text → List (Char × Bool)
  | [] => []
  | c :: rest =>
    if isBlank c && strand.nest.quote.isNone then beadsFrom (strand.step c) rest
    else (c, strand.lag && isNameChar c) :: beadsFrom (strand.step c) rest

/-- Texts with the same beads. -/
def Alike (s t : Text) : Prop := beadsFrom {} s = beadsFrom {} t

/-- Texts that have the same beads whatever follows them. -/
def Interchangeable (s t : Text) : Prop := ∀ rest, Alike (s ++ rest) (t ++ rest)

section Beads

variable {strand : Strand} {s t : Text} {c d : Char}

theorem strand_nest (strand : Strand) (s : Text) : (strand.read s).nest = strand.nest.read s := by
  induction s generalizing strand with
  | nil => rfl
  | cons c s ih => exact ih (strand.step c)

theorem strand_append (strand : Strand) (s t : Text) : strand.read (s ++ t) = (strand.read s).read t := List.foldl_append

theorem beadsFrom_append (strand : Strand) (s t : Text) :
    beadsFrom strand (s ++ t) = beadsFrom strand s ++ beadsFrom (strand.read s) t := by
  induction s generalizing strand with
  | nil => rfl
  | cons c s ih =>
    rw [List.cons_append, beadsFrom, beadsFrom, ih]
    split <;> rfl

theorem beads_squeezed (strand : Strand) (s : Text) : (beadsFrom strand s).map Prod.fst = squeezeFrom strand.nest s := by
  induction s generalizing strand with
  | nil => rfl
  | cons c s ih =>
    rw [beadsFrom, squeezeFrom]
    split
    · exact ih (strand.step c)
    · exact congrArg (c :: ·) (ih (strand.step c))

theorem Alike.squeezed (same : Alike s t) : squeeze s = squeeze t := by
  have beads := congrArg (List.map Prod.fst) same
  rwa [beads_squeezed, beads_squeezed] at beads

theorem Interchangeable.alike (same : Interchangeable s t) : Alike s t := by
  have beads := same []
  rwa [List.append_nil, List.append_nil] at beads

theorem interchangeable_refl (s : Text) : Interchangeable s s := fun _ => rfl

theorem Interchangeable.snoc (same : Interchangeable s t) (c : Char) : Interchangeable (s ++ [c]) (t ++ [c]) := by
  intro rest
  rw [List.append_assoc, List.append_assoc]
  exact same ([c] ++ rest)

theorem Interchangeable.symm (same : Interchangeable s t) : Interchangeable t s := fun rest => (same rest).symm

theorem Interchangeable.trans {u : Text} (first : Interchangeable s t) (second : Interchangeable t u) :
    Interchangeable s u :=
  fun rest => (first rest).trans (second rest)

theorem step_white (bare : Bare strand.nest) (white : isBlank c = true) : strand.step c = { strand with lag := true } := by
  have same : strand.nest.step c = strand.nest := by
    rw [eq_within bare, step_ordinary (ordinary_of_isBlank white)]
  rw [Strand.step, same, bare.1, white]
  rfl

theorem beads_white (bare : Bare strand.nest) (white : isBlank c = true) (s : Text) :
    beadsFrom strand (c :: s) = beadsFrom { strand with lag := true } s := by
  rw [beadsFrom, step_white bare white, white, bare.1]
  rfl

theorem alike_blank (bare : Bare (Nest.read {} s)) (white : isBlank c = true) : Alike s (s ++ [c]) := by
  have bare' : Bare (Strand.read {} s).nest := by
    rw [strand_nest]
    exact bare
  rw [Alike, beadsFrom_append, beads_white bare' white, beadsFrom, List.append_nil]

/-- Where a word would begin in any case, a blank changes nothing. -/
theorem interchangeable_blank (bare : Bare (Nest.read {} s)) (lag : (Strand.read {} s).lag = true) (white : isBlank c = true) :
    Interchangeable s (s ++ [c]) := by
  intro rest
  have bare' : Bare (Strand.read {} s).nest := by
    rw [strand_nest]
    exact bare
  have still : { Strand.read {} s with lag := true } = Strand.read {} s := by
    generalize Strand.read {} s = strand at lag
    obtain ⟨nest, _⟩ := strand
    obtain rfl : _ = true := lag
    rfl
  rw [Alike, List.append_assoc, beadsFrom_append, beadsFrom_append {} s, List.singleton_append, beads_white bare' white, still]

/-- Neither does one in front of a character that is no letter. -/
theorem interchangeable_before (bare : Bare (Nest.read {} s)) (white : isBlank c = true) (other : isNameChar d = false) :
    Interchangeable (s ++ [d]) (s ++ [c, d]) := by
  intro rest
  have bare' : Bare (Strand.read {} s).nest := by
    rw [strand_nest]
    exact bare
  rw [Alike, List.append_assoc, List.append_assoc, beadsFrom_append, beadsFrom_append {} s, List.cons_append, List.cons_append,
    beads_white bare' white, List.nil_append, List.singleton_append, beadsFrom, beadsFrom, other, Bool.and_false, Bool.and_false]
  rfl

end Beads

section Preludes

variable {s t behind : Text}

def squeezedAtRule (rule : AtRule) : AtRule := { rule with params := squeeze rule.params }

/-- The letters at the front, up to one that stands apart. -/
def wordOf (beads : List (Char × Bool)) : Text := (beads.takeWhile fun bead => isNameChar bead.1 && !bead.2).map Prod.fst

/-- No word begins behind a blank. -/
theorem word_apart (depth : Nat) (s : Text) : wordOf (beadsFrom ⟨within depth, true⟩ s) = [] := by
  induction s with
  | nil => rfl
  | cons c s ih =>
    cases white : isBlank c
    · cases letter : isNameChar c <;> simp [beadsFrom, white, wordOf, letter]
    · rw [beads_white ⟨rfl, rfl⟩ white]
      exact ih

theorem word_beads (depth : Nat) (s : Text) : wordOf (beadsFrom ⟨within depth, false⟩ s) = s.takeWhile isNameChar := by
  induction s with
  | nil => rfl
  | cons c s ih =>
    cases letter : isNameChar c
    · rw [List.takeWhile_cons_of_neg (by simp [letter])]
      cases white : isBlank c
      · simp [beadsFrom, white, wordOf, letter]
      · rw [beads_white ⟨rfl, rfl⟩ white]
        exact word_apart depth s
    · have solid := not_blank_of_isNameChar letter
      have other : isMark c = false := by
        by_contra mark
        simp only [isMark, Bool.not_eq_false, Bool.or_eq_true, beq_iff_eq] at mark
        rcases mark with ((rfl | rfl) | rfl) | rfl <;> exact absurd letter (by decide)
      have onward : Strand.step ⟨within depth, false⟩ c = ⟨within depth, false⟩ := by
        rw [Strand.step, step_ordinary (ordinary_of_isNameChar letter), solid, other]
        rfl
      rw [List.takeWhile_cons_of_pos letter, beadsFrom, onward, solid, ← ih]
      simp [wordOf, letter]

/-- What stands in front of a text that is trimmed leaves no beads. -/
theorem beads_trim (s : Text) : ∃ after, (∀ c ∈ after, isBlank c = true) ∧ beadsFrom {} s = beadsFrom {} (trim s ++ after) := by
  obtain ⟨before, after, whole, white, white'⟩ := trim_spec s
  refine ⟨after, white', ?_⟩
  conv_lhs => rw [whole]
  clear whole
  induction before with
  | nil => rfl
  | cons c before ih =>
    obtain ⟨own, others⟩ := List.forall_mem_cons.mp white
    rw [List.cons_append, beads_white ⟨rfl, rfl⟩ own]
    exact ih others

theorem takeWhile_before_blanks {after : Text} (white : ∀ c ∈ after, isBlank c = true) (s : Text) :
    (s ++ after).takeWhile isNameChar = s.takeWhile isNameChar := by
  have none : after.takeWhile isNameChar = [] := by
    cases after with
    | nil => rfl
    | cons c rest =>
      have other : isNameChar c ≠ true := by
        intro letter
        exact absurd ((not_blank_of_isNameChar letter).symm.trans (white c List.mem_cons_self)) (by decide)
      exact List.takeWhile_cons_of_neg other
  rw [List.takeWhile_append, none, List.append_nil]
  split
  next all => exact ((List.takeWhile_prefix _).eq_of_length all).symm
  next => rfl

/-- The name of an at-rule is told by the beads of its prelude. -/
theorem word_of_prelude (prelude : trim s = '@' :: behind) : behind.takeWhile isNameChar = wordOf (beadsFrom {} s).tail := by
  obtain ⟨after, white, beads⟩ := beads_trim s
  have sign : beadsFrom {} ('@' :: (behind ++ after)) = ('@', false) :: beadsFrom ⟨within 0, false⟩ (behind ++ after) := rfl
  rw [beads, prelude, List.cons_append, sign, List.tail_cons, word_beads, takeWhile_before_blanks white]

/-- So are its parameters, squeezed. -/
theorem squeezed_prelude (prelude : trim s = '@' :: behind) :
    squeeze (behind.drop (behind.takeWhile isNameChar).length) =
      ((trim (squeeze s)).drop 1).drop (behind.takeWhile isNameChar).length := by
  have letters : ∀ c ∈ behind.takeWhile isNameChar, isNameChar c = true :=
    fun c member => List.all_eq_true.mp List.all_takeWhile c member
  have solid : squeeze (behind.takeWhile isNameChar) = behind.takeWhile isNameChar :=
    squeezeFrom_all (fun c member => not_blank_of_isNameChar (letters c member)) {}
  have fresh : Nest.read {} (behind.takeWhile isNameChar) = {} :=
    read_ordinary (fun c member => ordinary_of_isNameChar (letters c member)) 0
  have parted : squeeze behind = behind.takeWhile isNameChar ++ squeeze (behind.drop (behind.takeWhile isNameChar).length) := by
    conv_lhs => rw [← List.prefix_iff_eq_append.mp (List.takeWhile_prefix isNameChar (l := behind))]
    rw [squeeze, squeezeFrom_append, fresh, ← squeeze, ← squeeze, solid]
  have sign : squeeze ('@' :: behind) = '@' :: squeeze behind := rfl
  rw [← squeeze_trim, prelude, sign, List.drop_one, List.tail_cons, parted, List.drop_left]

/-- Preludes with the same beads spell the same at-rule but for blanks in its parameters. -/
theorem Alike.atRule (same : Alike s t) {behind' : Text} (prelude : trim s = '@' :: behind)
    (prelude' : trim t = '@' :: behind') : squeezedAtRule (atRuleOf behind) = squeezedAtRule (atRuleOf behind') := by
  have name : behind.takeWhile isNameChar = behind'.takeWhile isNameChar := by
    rw [word_of_prelude prelude, word_of_prelude prelude', same]
  have params := squeezed_prelude prelude
  rw [same.squeezed, name, ← squeezed_prelude prelude', ← name] at params
  unfold atRuleOf squeezedAtRule
  dsimp only
  rw [← name]
  split
  · rfl
  · dsimp only
    rw [squeeze_spaced, squeeze_spaced, params]

theorem Alike.trimmed (same : Alike s t) : squeeze (trim s) = squeeze (trim t) := by
  rw [squeeze_trim, squeeze_trim, same.squeezed]

theorem squeeze_head (trimmed : Trimmed s) : (squeeze s).head? = s.head? := by
  cases s with
  | nil => rfl
  | cons c rest => rw [squeeze, squeezeFrom_solid (trimmed.first c rfl), List.head?_cons, List.head?_cons]

/-- Either text is blank if the other one is, and begins an at-rule if the other one does. -/
theorem Alike.head (same : Alike s t) : (trim s).head? = (trim t).head? := by
  rw [← squeeze_head (trim_trimmed s), ← squeeze_head (trim_trimmed t), same.trimmed]

end Preludes

end CascadeLens.Proofs.SqueezedText
