import CascadeLens.Page.Basic
import CascadeLens.Proofs.MarkupReading

/-! The places a reader of markup comes to. The place and the raw content it is in are all that the tags behind it depend
on, so what is read of some lines is found again in every text that the lines stand in, if a reader comes to stand at both
of their ends. -/

namespace CascadeLens.Proofs.ReaderPlaces
open Text Page MarkupStretches MarkupReading

variable {raw raw' : Option Text} {c : Char} {s t a rest : Text} {markup : List Markup} {extra n : Nat}

/-- The tags among markup, with the attributes as an element has them. -/
def tagsOf (markup : List Markup) : List (Text × List (Text × Text)) :=
  markup.filterMap fun
    | .enter name attributes _ => some (name, attributes.foldl putAttribute [])
    | _ => none

theorem tagsOf_append (first second : List Markup) : tagsOf (first ++ second) = tagsOf first ++ tagsOf second :=
  List.filterMap_append

/-- The tags that are read in both passes over a text. -/
def tagsFrom? (raw : Option Text) (s : Text) : Option (List (Text × List (Text × Text))) :=
  match pass false raw s with
  | none => none
  | some (first, raw, left) => (pass true raw left).map fun (second, _, _) => tagsOf first ++ tagsOf second

theorem tagsFrom_markup (s : Text) : tagsFrom? none s = (markup? s).map tagsOf := by
  unfold tagsFrom? markup?
  cases pass false none s with
  | none => rfl
  | some first =>
    dsimp only
    cases pass true first.2.1 first.2.2 with
    | none => rfl
    | some second =>
      rw [Option.map_some, Option.map_some, tagsOf_append, tagsOf_append]
      split <;> simp [tagsOf]

section Moves

theorem pass_take {final : Bool} (taken : move final raw c rest = .take markup raw' extra false) :
    pass final raw (c :: rest) = (pass final raw' (rest.drop extra)).map fun (more, raw, left) => (markup ++ more, raw, left) := by
  rw [pass.eq_def]
  dsimp only
  rw [taken]
  rfl

theorem pass_wait {final : Bool} (waits : move final raw c rest = .wait) : pass final raw (c :: rest) = some ([], raw, c :: rest) := by
  rw [pass.eq_def]
  dsimp only
  rw [waits]

theorem tagsFrom_take (taken : move false raw c rest = .take markup raw' extra false) :
    tagsFrom? raw (c :: rest) = (tagsFrom? raw' (rest.drop extra)).map (tagsOf markup ++ ·) := by
  unfold tagsFrom?
  rw [pass_take taken]
  cases pass false raw' (rest.drop extra) with
  | none => rfl
  | some first =>
    dsimp only [Option.map_some]
    rw [Option.map_map]
    congr 1
    funext second
    rw [Function.comp_apply, tagsOf_append, List.append_assoc]

theorem tagsFrom_quiet (taken : move false raw c rest = .take markup raw' extra false) (quiet : tagsOf markup = []) :
    tagsFrom? raw (c :: rest) = tagsFrom? raw' (rest.drop extra) := by
  rw [tagsFrom_take taken, quiet]
  exact Option.map_id'

theorem tagsFrom_wait (waits : ∀ final, move final raw c rest = .wait) : tagsFrom? raw (c :: rest) = some [] := by
  unfold tagsFrom?
  rw [pass_wait (waits false)]
  dsimp only
  rw [pass_wait (waits true)]
  rfl

theorem tagsFrom_nil (raw : Option Text) : tagsFrom? raw [] = some [] := by
  unfold tagsFrom?
  rw [pass.eq_def]
  dsimp only
  rw [pass.eq_def]
  rfl

end Moves

section Steps

/-- What a reader takes with a character and so many behind it, and the raw content it is in then. Text and raw content
are taken one by one. Nothing if the reader waits here or refuses the page. -/
def advance? (raw : Option Text) (c : Char) (rest : Text) : Option (List Markup × Option Text × Nat) :=
  match raw with
  | some name =>
    match rawEndHere? name (c :: rest) with
    | some length => some ([.leave name], none, length - 1)
    | none => some ([], some name, 0)
  | none =>
    if c == '<' then
      match construct rest with
      | .found markup length => some (markup, rawAfter markup, length)
      | _ => none
    else if c == '&' then
      match textReference rest with
      | .take markup raw length false => some (markup, raw, length)
      | _ => none
    else some ([], none, 0)

theorem rawEnd_filled {name : Text} {before length : Nat} (found : rawEnd? name s = some (before, length)) : 0 < length := by
  induction s generalizing before with
  | nil => cases found
  | cons c rest ih =>
    rw [rawEnd?] at found
    split at found
    next here =>
      obtain ⟨-, rfl⟩ := Prod.mk.inj (Option.some.inj found)
      exact (rawEndHere_local name).filled here
    · obtain ⟨⟨before', length'⟩, behind, same⟩ := Option.map_eq_some_iff.mp found
      obtain ⟨-, rfl⟩ := Prod.mk.inj same
      exact ih behind

/-- Raw content has no tags. -/
theorem tagsFrom_rawEnd {name : Text} {before length : Nat} (found : rawEnd? name (c :: rest) = some (before, length)) :
    tagsFrom? (some name) (c :: rest) = tagsFrom? none (rest.drop (before + length - 1)) := by
  refine tagsFrom_quiet (by simp only [move, found]; rfl) ?_
  rw [tagsOf_append]
  split <;> rfl

/-- Raw content goes on behind a character that does not begin its end. -/
theorem tagsFrom_raw {name : Text} (inside : rawEndHere? name (c :: rest) = none) :
    tagsFrom? (some name) (c :: rest) = tagsFrom? (some name) rest := by
  have found : rawEnd? name (c :: rest) = (rawEnd? name rest).map fun place => (place.1 + 1, place.2) := by
    rw [rawEnd?, inside]
  cases behind : rawEnd? name rest with
  | none =>
    rw [behind] at found
    have quiet : tagsFrom? (some name) rest = some [] := by
      cases rest with
      | nil => exact tagsFrom_nil _
      | cons d more => exact tagsFrom_wait fun final => by simp [move, behind]
    rw [quiet]
    exact tagsFrom_wait fun final => by simp [move, found]
  | some place =>
    rw [behind] at found
    cases rest with
    | nil => cases behind
    | cons d more =>
      have filled : 0 < place.2 := rawEnd_filled behind
      have same : (d :: more).drop (place.1 + 1 + place.2 - 1) = more.drop (place.1 + place.2 - 1) := by
        rw [show place.1 + 1 + place.2 - 1 = place.1 + place.2 - 1 + 1 by omega, List.drop_succ_cons]
      rw [tagsFrom_rawEnd found, tagsFrom_rawEnd behind, same]

/-- Text goes on behind a character that does not begin markup. -/
theorem tagsFrom_text (bracket : c ≠ '<') (sign : c ≠ '&') : tagsFrom? none (c :: rest) = tagsFrom? none rest := by
  have plain : ∀ {c : Char}, c ≠ '<' → c ≠ '&' → ∀ rest, tagsFrom? none (c :: rest) =
      tagsFrom? none (rest.drop (rest.takeWhile fun c => c != '<' && c != '&').length) := by
    intro c bracket sign rest
    have moved : move false none c rest = .take [.text (c :: rest.takeWhile fun c => c != '<' && c != '&')] none
        (rest.takeWhile fun c => c != '<' && c != '&').length false := by
      simp [move, bracket, sign]
    exact tagsFrom_quiet moved rfl
  rw [plain bracket sign]
  cases rest with
  | nil => rfl
  | cons d more =>
    by_cases goes : (d != '<' && d != '&') = true
    · obtain ⟨bracket', sign'⟩ : d ≠ '<' ∧ d ≠ '&' := by simpa using goes
      rw [List.takeWhile_cons_of_pos (p := fun c => c != '<' && c != '&') goes, plain bracket' sign' more]
      rfl
    · rw [List.takeWhile_cons_of_neg (p := fun c => c != '<' && c != '&') goes]
      rfl

theorem tagsFrom_advance (taken : advance? raw c rest = some (markup, raw', extra)) :
    tagsFrom? raw (c :: rest) = (tagsFrom? raw' (rest.drop extra)).map (tagsOf markup ++ ·) := by
  unfold advance? at taken
  split at taken
  next name =>
    split at taken
    next length here =>
      cases taken
      have found : rawEnd? name (c :: rest) = some (0, length) := by rw [rawEnd?, here]
      rw [tagsFrom_rawEnd found, Nat.zero_add]
      exact Option.map_id'.symm
    next inside =>
      cases taken
      rw [tagsFrom_raw inside]
      exact Option.map_id'.symm
  · split at taken
    next bracket =>
      split at taken
      next found =>
        cases taken
        refine tagsFrom_take ?_
        simp only [move, bracket, if_true, found]
      · cases taken
    next bracket =>
      split at taken
      next sign =>
        split at taken
        next found =>
          cases taken
          refine tagsFrom_take ?_
          simp [move, bracket, sign, found]
        · cases taken
      next sign =>
        cases taken
        rw [tagsFrom_text (by simpa using bracket) (by simpa using sign)]
        exact Option.map_id'.symm

/-- The end of raw content is known by its own characters. -/
theorem advance_raw_within {name : Text} (taken : advance? (some name) c (t ++ '\n' :: a) = some (markup, raw', extra))
    (within : extra ≤ t.length) : advance? (some name) c t = some (markup, raw', extra) := by
  unfold advance? at taken ⊢
  dsimp only at taken ⊢
  cases here : rawEndHere? name (c :: (t ++ '\n' :: a)) with
  | some length =>
    rw [here] at taken
    cases taken
    have positive := (rawEndHere_local name).filled here
    rw [(rawEndHere_local name).within (s := c :: t) here (by rw [List.length_cons]; omega)]
  | none =>
    rw [here] at taken
    cases here' : rawEndHere? name (c :: t) with
    | none => exact taken
    | some length =>
      have onward := (rawEndHere_local name).onward here' ('\n' :: a)
      rw [List.cons_append, here] at onward
      cases onward

/-- A step that ends in the lines is the same without what stands behind them, or nothing is found in the rest of them. -/
theorem advance_within (taken : advance? raw c (t ++ '\n' :: a) = some (markup, raw', extra)) (within : extra ≤ t.length) :
    advance? raw c t = some (markup, raw', extra) ∨ tagsFrom? raw (c :: t) = some [] := by
  cases raw with
  | some name => exact .inl (advance_raw_within taken within)
  | none =>
    unfold advance? at taken ⊢
    dsimp only at taken ⊢
    by_cases bracket : (c == '<') = true
    · rw [if_pos bracket] at taken ⊢
      obtain rfl : c = '<' := beq_iff_eq.mp bracket
      by_cases filled : t = []
      · subst filled
        exact .inr (tagsFrom_wait fun final => by simp [move, construct])
      · left
        cases found : construct (t ++ '\n' :: a) with
        | found markup length =>
          rw [found] at taken
          cases taken
          rw [construct_within filled found within]
        | unfinished => rw [found] at taken; cases taken
        | refused => rw [found] at taken; cases taken
    rw [if_neg bracket] at taken ⊢
    by_cases sign : (c == '&') = true
    · rw [if_pos sign] at taken ⊢
      split at taken
      next found =>
        cases taken
        rcases textReference_within found with same | waits
        · left
          rw [same]
        · right
          exact tagsFrom_wait fun final => by simp [move, bracket, sign, waits]
      · cases taken
    · rw [if_neg sign] at taken ⊢
      exact .inl taken

end Steps

section Runs

/-- The raw content that a reader is in behind so many characters, if it comes to stand there. -/
def standing (raw : Option Text) (s : Text) (n : Nat) : Option (Option Text) :=
  match n, s with
  | 0, _ => some raw
  | _ + 1, [] => none
  | n + 1, c :: rest =>
    match advance? raw c rest with
    | some (_, raw, extra) => if extra ≤ n then standing raw (rest.drop extra) (n - extra) else none
    | none => none
termination_by n
decreasing_by exact Nat.lt_succ_of_le (Nat.sub_le _ _)

theorem standing_cons : standing raw (c :: rest) (n + 1) = some raw' ↔ ∃ markup between extra,
    advance? raw c rest = some (markup, between, extra) ∧ extra ≤ n ∧ standing between (rest.drop extra) (n - extra) = some raw' := by
  rw [standing]
  constructor
  · intro stands
    split at stands
    next taken =>
      split at stands
      next within => exact ⟨_, _, _, taken, within, stands⟩
      · cases stands
    · cases stands
  · rintro ⟨markup, between, extra, taken, within, stands⟩
    simp only [taken, if_pos within, stands]

/-- What is read behind a place that a reader comes to is read of the whole, behind what stands in front of the place. -/
theorem tagsFrom_standing (stands : standing raw s n = some raw') :
    ∃ front, tagsFrom? raw s = (tagsFrom? raw' (s.drop n)).map (front ++ ·) := by
  induction n using Nat.strongRecOn generalizing raw s with
  | ind n ih =>
    match n, s with
    | 0, s =>
      rw [standing] at stands
      obtain rfl := Option.some.inj stands
      exact ⟨[], by simp⟩
    | _ + 1, [] =>
      rw [standing] at stands
      cases stands
    | n + 1, c :: rest =>
      obtain ⟨markup, between, extra, taken, within, onward⟩ := standing_cons.mp stands
      obtain ⟨front, read⟩ := ih (n - extra) (by omega) onward
      refine ⟨tagsOf markup ++ front, ?_⟩
      rw [tagsFrom_advance taken, read, Option.map_map, List.drop_drop, List.drop_succ_cons,
        show extra + (n - extra) = n by omega]
      congr 1
      funext late
      rw [Function.comp_apply, List.append_assoc]

/-- What lines have is read of them alone, in front of what is read behind them. -/
theorem tagsFrom_within {all : List (Text × List (Text × Text))} (stands : (standing raw (t ++ '\n' :: a) t.length).isSome)
    (read : tagsFrom? raw (t ++ '\n' :: a) = some all) : ∃ own late, tagsFrom? raw t = some own ∧ all = own ++ late := by
  induction size : t.length using Nat.strongRecOn generalizing raw t all with
  | ind size ih =>
    subst size
    cases t with
    | nil => exact ⟨[], all, tagsFrom_nil raw, rfl⟩
    | cons c t =>
      rw [List.cons_append] at stands read
      obtain ⟨last, stands⟩ := Option.isSome_iff_exists.mp stands
      obtain ⟨markup, between, extra, taken, within, onward⟩ := standing_cons.mp stands
      rw [tagsFrom_advance taken, drop_front within] at read
      rw [drop_front within] at onward
      obtain ⟨behind, read', rfl⟩ := Option.map_eq_some_iff.mp read
      rcases advance_within taken within with same | quiet
      · have size : (t.drop extra).length = t.length - extra := List.length_drop
        rw [← size] at onward
        obtain ⟨own, late, found, rfl⟩ := ih (t.drop extra).length (by rw [List.length_cons]; omega)
          (Option.isSome_of_eq_some onward) read' rfl
        refine ⟨tagsOf markup ++ own, late, ?_, (List.append_assoc _ _ _).symm⟩
        rw [tagsFrom_advance same, found]
        rfl
      · exact ⟨[], _, quiet, rfl⟩

end Runs

end CascadeLens.Proofs.ReaderPlaces
