import CascadeLens.Page.Markup
import CascadeLens.Proofs.FeatureSearch
import CascadeLens.Proofs.TextShape

/-! Markup in front of a line end. A construct that is completed before the line ends is read the same without the lines
behind it: nothing looks further ahead than one character behind its end. -/

namespace CascadeLens.Proofs.MarkupStretches
open Text Page TextShape FeatureSearch

section Runs

variable {p : Char → Bool} {s a t : Text}

theorem run_stopped (stops : p '\n' = false) (s a : Text) : (s ++ '\n' :: a).takeWhile p = s.takeWhile p := by
  induction s with
  | nil => simp [stops]
  | cons c rest ih =>
    rw [List.cons_append, List.takeWhile_cons, List.takeWhile_cons, ih]

theorem run_inside (short : (s.takeWhile p).length < s.length) (t : Text) : (s ++ t).takeWhile p = s.takeWhile p := by
  rw [List.takeWhile_append, if_neg (by omega)]

/-- A run that line ends do not stop either stops inside of the line or goes on behind it. -/
theorem run_cases (passes : p '\n' = true) (s a : Text) :
    ((s ++ '\n' :: a).takeWhile p = s.takeWhile p ∧ (s.takeWhile p).length < s.length) ∨
      (s.length < ((s ++ '\n' :: a).takeWhile p).length ∧ s.takeWhile p = s) := by
  have bound : (s.takeWhile p).length ≤ s.length := (List.takeWhile_sublist p).length_le
  by_cases short : (s.takeWhile p).length < s.length
  · exact .inl ⟨run_inside short _, short⟩
  · have whole : s.takeWhile p = s := (List.takeWhile_prefix p).eq_of_length_le (by omega)
    refine .inr ⟨?_, whole⟩
    rw [List.takeWhile_append, if_pos (by rw [whole]), List.takeWhile_cons, if_pos passes, List.length_append,
      List.length_cons]
    omega

theorem drop_filled {n : Nat} (short : n < s.length) : ∃ c rest, s.drop n = c :: rest := by
  apply List.exists_cons_of_ne_nil
  intro nothing
  have none_left := congrArg List.length nothing
  rw [List.length_drop, List.length_nil] at none_left
  omega

theorem drop_front {n : Nat} (bound : n ≤ s.length) (t : Text) : (s ++ t).drop n = s.drop n ++ t :=
  List.drop_append_of_le_length bound

theorem head_front (filled : s ≠ []) (t : Text) : (s ++ t).head? = s.head? := by
  obtain ⟨c, rest, rfl⟩ := List.exists_cons_of_ne_nil filled
  rfl

theorem drop_run (p : Char → Bool) (s : Text) : s.drop (s.takeWhile p).length = s.dropWhile p := by
  induction s with
  | nil => rfl
  | cons c rest ih =>
    cases passed : p c with
    | true =>
      rw [List.takeWhile_cons_of_pos passed, List.dropWhile_cons_of_pos passed, List.length_cons, List.drop_succ_cons, ih]
    | false =>
      have stopped : ¬p c = true := by rw [passed]; exact Bool.false_ne_true
      rw [List.takeWhile_cons_of_neg stopped, List.dropWhile_cons_of_neg stopped]
      rfl

/-- A run that ends inside of a text ends at a character. -/
theorem stop_of_short (short : (s.takeWhile p).length < s.length) : ∃ c ∈ s, p c = false := by
  obtain ⟨c, rest, left⟩ := drop_filled short
  have stopped := List.head?_dropWhile_not p s
  rw [← drop_run, left] at stopped
  exact ⟨c, List.mem_of_mem_drop (left ▸ List.mem_cons_self), by simpa using stopped⟩

theorem mem_behind_run {c : Char} (member : c ∈ s) (outside : p c = false) : c ∈ s.dropWhile p := by
  have whole : s.takeWhile p ++ s.dropWhile p = s := List.takeWhile_append_dropWhile
  rw [← whole] at member
  refine (List.mem_append.mp member).resolve_left ?_
  intro front
  exact absurd (List.all_eq_true.mp List.all_takeWhile c front) (by rw [outside]; exact Bool.false_ne_true)

theorem trimLeft_front {c : Char} (member : c ∈ s) (solid : isBlank c = false) (t : Text) :
    trimLeft (s ++ t) = trimLeft s ++ t := by
  have left : ¬(s.dropWhile isBlank).isEmpty = true := by
    rw [List.isEmpty_iff]
    exact List.ne_nil_of_mem (mem_behind_run member solid)
  rw [trimLeft, List.dropWhile_append, if_neg left]
  rfl

end Runs

section Passed

variable {s a t : Text} {markup : List Markup} {length : Nat}

theorem passedOver_within (found : passedOver (s ++ '\n' :: a) = .found markup length) (within : length ≤ s.length) :
    passedOver s = .found markup length := by
  unfold passedOver at found ⊢
  dsimp only at found ⊢
  split at found
  · cases found
  · obtain ⟨rfl, rfl⟩ := Construct.found.inj found
    rcases run_cases (p := (· != '>')) rfl s a with ⟨same, short⟩ | ⟨long, -⟩
    · rw [same, if_neg]
      rw [beq_iff_eq]
      omega
    · omega

end Passed

section Marks

/-- A mark of some length is known by its own characters. -/
structure Local (here : Text → Option Nat) : Prop where
  filled : ∀ {s n}, here s = some n → 0 < n
  onward : ∀ {s n}, here s = some n → ∀ t, here (s ++ t) = some n
  within : ∀ {s a n}, here (s ++ '\n' :: a) = some n → n ≤ s.length → here s = some n

variable {here search : Text → Option Nat} {s a : Text} {n : Nat}

/-- The first of such marks is found without what stands behind it. -/
theorem Local.search_within (own : Local here)
    (step : ∀ c rest, search (c :: rest) = (here (c :: rest)).or ((search rest).map (· + 1)))
    (found : search (s ++ '\n' :: a) = some n) (within : n ≤ s.length) : search s = some n := by
  induction s generalizing n with
  | nil =>
    rw [List.nil_append, step] at found
    rcases Option.or_eq_some_iff.mp found with first | ⟨-, later⟩
    · exact absurd (own.filled first) (by simpa using within)
    · obtain ⟨m, -, rfl⟩ := Option.map_eq_some_iff.mp later
      cases within
  | cons c rest ih =>
    rw [List.cons_append, step] at found
    rw [step]
    rcases Option.or_eq_some_iff.mp found with first | ⟨not_first, later⟩
    · rw [own.within first within]
      rfl
    · obtain ⟨m, behind, rfl⟩ := Option.map_eq_some_iff.mp later
      have none_here : here (c :: rest) = none := by
        cases first : here (c :: rest) with
        | none => rfl
        | some m =>
          have again := own.onward first ('\n' :: a)
          rw [List.cons_append, not_first] at again
          cases again
      rw [none_here, ih behind (Nat.le_of_succ_le_succ within)]
      rfl

/-- The length of a mark that ends a comment where a text begins. -/
def commentMark? : Text → Option Nat
  | '-' :: '-' :: more =>
    let blanks := (more.takeWhile isBlank).length
    if (more.drop blanks).head? == some '>' then some (blanks + 3) else none
  | _ => none

theorem commentEnd_cons (c : Char) (rest : Text) :
    commentEnd? (c :: rest) = (commentMark? (c :: rest)).or ((commentEnd? rest).map (· + 1)) := by
  rw [commentEnd?.eq_def]
  dsimp only
  congr 1
  unfold commentMark?
  split
  · rfl
  next other =>
    split
    next more same =>
      obtain ⟨rfl, rfl⟩ := List.cons.inj same
      exact absurd rfl (other more rfl)
    · rfl

theorem commentMark_some (found : commentMark? s = some n) : ∃ more, s = '-' :: '-' :: more ∧
    (more.drop (more.takeWhile isBlank).length).head? = some '>' ∧ n = (more.takeWhile isBlank).length + 3 := by
  unfold commentMark? at found
  split at found
  next more =>
    dsimp only at found
    split at found
    next closed => exact ⟨more, rfl, beq_iff_eq.mp closed, (Option.some.inj found).symm⟩
    · cases found
  · cases found

/-- What is left behind a run is not all of a text in which something follows the run. -/
theorem short_of_head {p : Char → Bool} {c : Char} (follows : (s.drop (s.takeWhile p).length).head? = some c) :
    (s.takeWhile p).length < s.length := by
  rw [List.head?_drop] at follows
  exact (List.getElem?_eq_some_iff.mp follows).1

theorem commentMark_local : Local commentMark? where
  filled := by
    intro s n found
    obtain ⟨more, -, -, rfl⟩ := commentMark_some found
    omega
  onward := by
    intro s n found t
    obtain ⟨more, rfl, closed, rfl⟩ := commentMark_some found
    have short := short_of_head closed
    have front : ((more ++ t).drop (more.takeWhile isBlank).length).head? = some '>' := by
      obtain ⟨c, rest, left⟩ := drop_filled short
      rw [left] at closed
      rw [drop_front (Nat.le_of_lt short), left]
      exact closed
    simp only [List.cons_append, commentMark?, run_inside short, front, beq_self_eq_true, if_true]
  within := by
    intro s a n found within
    obtain ⟨more', whole, closed, rfl⟩ := commentMark_some found
    match s with
    | [] => exact absurd (List.cons.inj whole).1 (by decide)
    | [c] => exact absurd (List.cons.inj (List.cons.inj whole).2).1 (by decide)
    | c :: d :: more =>
      simp only [List.cons_append, List.cons.injEq] at whole
      obtain ⟨rfl, rfl, rfl⟩ := whole
      rcases run_cases (p := isBlank) rfl more a with ⟨same, short⟩ | ⟨long, -⟩
      · rw [same, drop_front (Nat.le_of_lt short)] at closed
        obtain ⟨e, rest, left⟩ := drop_filled short
        rw [left] at closed
        simp only [commentMark?, left, same]
        exact if_pos (beq_iff_eq.mpr closed)
      · simp only [List.length_cons] at within
        omega

theorem commentEnd_within (found : commentEnd? (s ++ '\n' :: a) = some n) (within : n ≤ s.length) : commentEnd? s = some n :=
  commentMark_local.search_within commentEnd_cons found within

theorem closing_last : closingBrackets? 0 s = some n ↔ s.head? = some '>' ∧ n = 1 := by
  unfold closingBrackets?
  split
  next first => simp [beq_iff_eq.mp first, eq_comm]
  next first => simp [show s.head? ≠ some '>' by simpa using first]

theorem closing_more {brackets : Nat} : closingBrackets? (brackets + 1) s = some n ↔ ∃ behind m, s = ']' :: behind ∧
    closingBrackets? brackets (behind.drop (behind.takeWhile isBlank).length) = some m ∧
    n = m + (behind.takeWhile isBlank).length + 1 := by
  rw [closingBrackets?.eq_def]
  dsimp only
  split
  next behind =>
    rw [Option.map_eq_some_iff]
    constructor
    · rintro ⟨m, found, rfl⟩
      exact ⟨behind, m, rfl, found, rfl⟩
    · rintro ⟨behind', m, same, found, rfl⟩
      obtain rfl := (List.cons.inj same).2
      exact ⟨m, found, rfl⟩
  next other =>
    constructor
    · intro nothing
      cases nothing
    · rintro ⟨behind, m, rfl, -⟩
      exact absurd rfl (other behind)

theorem closing_filled {brackets : Nat} (found : closingBrackets? brackets s = some n) : s ≠ [] := by
  rintro rfl
  cases brackets with
  | zero => cases (closing_last.mp found).1
  | succ brackets =>
    obtain ⟨behind, m, whole, -⟩ := closing_more.mp found
    cases whole

theorem closingBrackets_local (brackets : Nat) : Local (closingBrackets? brackets) := by
  induction brackets with
  | zero =>
    refine ⟨?_, ?_, ?_⟩
    · intro s n found
      obtain ⟨-, rfl⟩ := closing_last.mp found
      omega
    · intro s n found t
      obtain ⟨first, rfl⟩ := closing_last.mp found
      exact closing_last.mpr ⟨(head_front (closing_filled found) t).trans first, rfl⟩
    · intro s a n found within
      obtain ⟨first, rfl⟩ := closing_last.mp found
      have filled : s ≠ [] := List.length_pos_iff.mp within
      exact closing_last.mpr ⟨(head_front filled _).symm.trans first, rfl⟩
  | succ brackets ih =>
    refine ⟨?_, ?_, ?_⟩
    · intro s n found
      obtain ⟨behind, m, -, -, rfl⟩ := closing_more.mp found
      omega
    · intro s n found t
      obtain ⟨behind, m, rfl, inner, rfl⟩ := closing_more.mp found
      have short : (behind.takeWhile isBlank).length < behind.length := by
        have left := List.length_pos_iff.mpr (closing_filled inner)
        rw [List.length_drop] at left
        omega
      refine closing_more.mpr ⟨behind ++ t, m, rfl, ?_, ?_⟩
      · rw [run_inside short, drop_front (Nat.le_of_lt short)]
        exact ih.onward inner t
      · rw [run_inside short]
    · intro s a n found within
      obtain ⟨behind', m, whole, inner, rfl⟩ := closing_more.mp found
      cases s with
      | nil => exact absurd (List.cons.inj whole).1 (by decide)
      | cons c behind =>
        simp only [List.cons_append, List.cons.injEq] at whole
        obtain ⟨rfl, rfl⟩ := whole
        rw [List.length_cons] at within
        rcases run_cases (p := isBlank) rfl behind a with ⟨same, short⟩ | ⟨long, -⟩
        · rw [same] at within ⊢
          rw [same, drop_front (Nat.le_of_lt short)] at inner
          have room : m ≤ (behind.drop (behind.takeWhile isBlank).length).length := by
            rw [List.length_drop]
            omega
          exact closing_more.mpr ⟨behind, m, rfl, ih.within inner room, rfl⟩
        · omega

theorem sectionEnd_within {brackets : Nat} (found : sectionEnd? brackets (s ++ '\n' :: a) = some n) (within : n ≤ s.length) :
    sectionEnd? brackets s = some n :=
  (closingBrackets_local brackets).search_within (fun c rest => by rw [sectionEnd?]) found within

/-- The parts of an end tag of raw content. -/
structure RawEnd (name s behind : Text) (blanks after : Nat) : Prop where
  opened : s = '<' :: '/' :: behind
  gap : (behind.takeWhile isBlank).length = blanks
  named : ((behind.drop blanks).take name.length).map Char.toLower = name
  room : ((behind.drop (blanks + name.length)).takeWhile isBlank).length = after
  closed : ((behind.drop (blanks + name.length)).drop after).head? = some '>'

theorem rawEndHere_iff {name : Text} : rawEndHere? name s = some n ↔
    ∃ behind blanks after, RawEnd name s behind blanks after ∧ n = 2 + blanks + name.length + after + 1 := by
  unfold rawEndHere?
  constructor
  · intro found
    split at found
    · cases found
    next behind opened =>
      dsimp only at found
      split at found
      next both =>
        rw [Bool.and_eq_true, beq_iff_eq, beq_iff_eq] at both
        exact ⟨behind, _, _, ⟨drop_eq_some.mp opened, rfl, both.1, rfl, both.2⟩, (Option.some.inj found).symm⟩
      · cases found
  · rintro ⟨behind, blanks, after, ⟨rfl, rfl, named, rfl, closed⟩, rfl⟩
    rw [show drop? "</".toList ('<' :: '/' :: behind) = some behind from rfl]
    dsimp only
    rw [if_pos]
    rw [named, closed]
    simp

theorem rawEndHere_local (name : Text) : Local (rawEndHere? name) where
  filled := by
    intro s n found
    obtain ⟨-, -, -, -, rfl⟩ := rawEndHere_iff.mp found
    omega
  onward := by
    intro s n found t
    obtain ⟨behind, blanks, after, ⟨rfl, rfl, named, rfl, closed⟩, rfl⟩ := rawEndHere_iff.mp found
    have left := short_of_head closed
    rw [List.length_drop] at left
    have short : (behind.takeWhile isBlank).length < behind.length := by omega
    have inside : (behind.takeWhile isBlank).length + name.length ≤ behind.length := by omega
    refine rawEndHere_iff.mpr ⟨behind ++ t, _, _, ⟨rfl, ?_, ?_, ?_, ?_⟩, rfl⟩
    · rw [run_inside short]
    · rw [drop_front (Nat.le_of_lt short), List.take_append_of_le_length (by rw [List.length_drop]; omega)]
      exact named
    · rw [drop_front inside, run_inside (short_of_head closed)]
    · rw [drop_front inside, drop_front (Nat.le_of_lt (short_of_head closed)), head_front ?_]
      · exact closed
      · rintro nothing
        rw [nothing] at closed
        cases closed
  within := by
    intro s a n found within
    obtain ⟨behind', blanks, after, ⟨whole, gap, named, room, closed⟩, rfl⟩ := rawEndHere_iff.mp found
    match s with
    | [] => exact absurd (List.cons.inj whole).1 (by decide)
    | [c] => exact absurd (List.cons.inj (List.cons.inj whole).2).1 (by decide)
    | c :: d :: behind =>
      simp only [List.cons_append, List.cons.injEq] at whole
      obtain ⟨rfl, rfl, rfl⟩ := whole
      simp only [List.length_cons] at within
      rw [drop_front (by omega)] at room closed
      rw [drop_front (by omega), List.take_append_of_le_length (by rw [List.length_drop]; omega)] at named
      have short : after < (behind.drop (blanks + name.length)).length := by
        rw [List.length_drop]
        omega
      refine rawEndHere_iff.mpr ⟨behind, blanks, after, ⟨rfl, ?_, named, ?_, ?_⟩, rfl⟩
      · rcases run_cases (p := isBlank) rfl behind a with ⟨same, -⟩ | ⟨long, -⟩
        · rw [← same, gap]
        · omega
      · rcases run_cases (p := isBlank) rfl (behind.drop (blanks + name.length)) a with ⟨same, -⟩ | ⟨long, -⟩
        · rw [← same, room]
        · omega
      · obtain ⟨e, rest, left⟩ := drop_filled short
        rw [drop_front (Nat.le_of_lt short), left] at closed
        rw [left]
        exact closed

end Marks

section Tags

variable {s a : Text} {markup : List Markup} {length : Nat}

theorem plainEndName_front (closed : '>' ∈ s) (a : Text) : plainEndName? (s ++ '\n' :: a) = plainEndName? s := by
  have inside : '>' ∈ trimLeft s := mem_behind_run closed rfl
  have name : (trimLeft s ++ '\n' :: a).takeWhile isEndNamePart = (trimLeft s).takeWhile isEndNamePart := run_stopped rfl _ a
  have bound : ((trimLeft s).takeWhile isEndNamePart).length ≤ (trimLeft s).length := (List.takeWhile_sublist _).length_le
  have behind : '>' ∈ (trimLeft s).drop ((trimLeft s).takeWhile isEndNamePart).length := by
    rw [drop_run]
    exact mem_behind_run inside rfl
  obtain ⟨d, rest, left⟩ : ∃ d rest, trimLeft ((trimLeft s).drop ((trimLeft s).takeWhile isEndNamePart).length) = d :: rest :=
    List.exists_cons_of_ne_nil (List.ne_nil_of_mem (mem_behind_run behind rfl))
  unfold plainEndName?
  dsimp only
  rw [trimLeft_front closed rfl, name, drop_front bound, trimLeft_front behind rfl, left]
  cases (trimLeft s).takeWhile isEndNamePart with
  | nil => rfl
  | cons c more =>
    by_cases bracket : d = '>'
    · subst bracket
      rfl
    · simp [bracket]

theorem endTag_within (found : endTag (s ++ '\n' :: a) = .found markup length) (within : length ≤ s.length) :
    endTag s = .found markup length := by
  unfold endTag at found ⊢
  dsimp only at found ⊢
  split at found
  · cases found
  · rcases run_cases (p := (· != '>')) rfl s a with ⟨same, short⟩ | ⟨long, -⟩
    · have closed : '>' ∈ s := by
        obtain ⟨c, member, stops⟩ := stop_of_short short
        obtain rfl : c = '>' := by simpa using stops
        exact member
      rw [same, plainEndName_front closed] at found
      rw [if_neg (by rw [beq_iff_eq]; omega)]
      exact found
    · split at found
      · obtain ⟨-, rfl⟩ := Construct.found.inj found
        omega
      · split at found
        · split at found <;> (obtain ⟨-, rfl⟩ := Construct.found.inj found; omega)
        · obtain ⟨-, rfl⟩ := Construct.found.inj found
          omega

theorem bracket_of_closing {brackets n : Nat} (found : closingBrackets? brackets s = some n) : '>' ∈ s := by
  induction brackets generalizing s n with
  | zero => exact List.mem_of_mem_head? (closing_last.mp found).1
  | succ brackets ih =>
    obtain ⟨behind, m, rfl, inner, -⟩ := closing_more.mp found
    exact List.mem_cons_of_mem _ (List.mem_of_mem_drop (ih inner))

theorem bracket_of_section {brackets n : Nat} (found : sectionEnd? brackets s = some n) : '>' ∈ s := by
  induction s generalizing n with
  | nil => cases found
  | cons c rest ih =>
    rw [sectionEnd?] at found
    rcases Option.or_eq_some_iff.mp found with first | ⟨-, later⟩
    · exact bracket_of_closing first
    · obtain ⟨m, behind, -⟩ := Option.map_eq_some_iff.mp later
      exact List.mem_cons_of_mem _ (ih behind)

/-- A character of the name of a marked section. -/
def isSectionNamePart (c : Char) : Bool := c.isAlphanum || c == '-' || c == '_' || c == '.'

/-- How many brackets end a marked section. -/
def sectionBrackets? (name : Text) : Option Nat :=
  if ["temp", "cdata", "ignore", "include", "rcdata"].any (·.toList == name) then some 2
  else if ["if", "else", "endif"].any (·.toList == name) then some 1
  else none

/-- A marked section that is completed: what follows its name, and how many brackets end it. -/
structure Section (s name behind : Text) (brackets : Nat) (markup : List Markup) (length : Nat) : Prop where
  letter : ∃ c, s.head? = some c ∧ c.isAlpha = true
  named : s.takeWhile isSectionNamePart = name
  rest : s.drop name.length = behind
  more : name.length + (behind.takeWhile isBlank).length ≠ s.length
  known : sectionBrackets? (lower name) = some brackets
  ended : sectionEnd? brackets s = some length
  read : markup = if lower name == "cdata".toList && behind.head? == some '[' then [.marked] else []

theorem markedSection_iff : markedSection s = .found markup length ↔
    ∃ name behind brackets, Section s name behind brackets markup length := by
  unfold markedSection
  constructor
  · intro found
    split at found
    · cases found
    next c rest =>
      split at found
      · cases found
      next letter =>
        dsimp only at found
        split at found
        · cases found
        next more =>
          split at found
          · cases found
          next brackets known =>
            split at found
            · cases found
            next ended =>
              obtain ⟨rfl, rfl⟩ := Construct.found.inj found
              have open_end := fun same => more (beq_iff_eq.mpr same)
              exact ⟨_, _, brackets, ⟨c, rfl, by simpa using letter⟩, rfl, rfl, open_end, known, ended, rfl⟩
  · rintro ⟨name, behind, brackets, ⟨c, first, letter⟩, rfl, rfl, more, known, ended, rfl⟩
    cases s with
    | nil => cases first
    | cons d rest =>
      obtain rfl := Option.some.inj first
      dsimp only
      rw [if_neg (by simp [letter])]
      split
      next whole => exact absurd (beq_iff_eq.mp whole) more
      · split
        next unknown => cases unknown.symm.trans known
        next brackets' known' =>
          obtain rfl : brackets' = brackets := Option.some.inj (known'.symm.trans known)
          rw [ended]
          rfl

theorem markedSection_within (found : markedSection (s ++ '\n' :: a) = .found markup length) (within : length ≤ s.length) :
    markedSection s = .found markup length := by
  obtain ⟨name, behind', brackets, letter, named, rest, more, known, ended, read⟩ := markedSection_iff.mp found
  have ended' : sectionEnd? brackets s = some length := sectionEnd_within ended within
  have bracket : '>' ∈ s := bracket_of_section ended'
  have named' : s.takeWhile isSectionNamePart = name := (run_stopped rfl s a).symm.trans named
  have bound : name.length ≤ s.length := named' ▸ (List.takeWhile_sublist _).length_le
  obtain ⟨behind, rest'⟩ : ∃ behind, s.drop name.length = behind := ⟨_, rfl⟩
  have inside : '>' ∈ behind := by
    rw [← rest', ← named', drop_run]
    exact mem_behind_run bracket rfl
  rw [drop_front bound, rest'] at rest
  subst rest
  have filled : s ≠ [] := List.ne_nil_of_mem bracket
  have sizes : behind.length = s.length - name.length := by rw [← rest', List.length_drop]
  refine markedSection_iff.mpr ⟨name, behind, brackets, ?_, named', rest', ?_, known, ended', ?_⟩
  · rwa [head_front filled] at letter
  · intro whole
    -- The bracket is no blank.
    have all : (behind.takeWhile isBlank).length = behind.length := by omega
    have same : behind.takeWhile isBlank = behind := (List.takeWhile_prefix isBlank).eq_of_length all
    have white := List.all_eq_true.mp List.all_takeWhile '>' (same.symm ▸ inside)
    cases white
  · rw [read, head_front (List.ne_nil_of_mem inside)]

end Tags

end CascadeLens.Proofs.MarkupStretches
