import CascadeLens.Proofs.MarkupStretches

/-! Start tags in front of a line end. Blanks may stand between all of their parts, so every part is followed by a run
that goes on behind the line unless something in the line stops it. -/

namespace CascadeLens.Proofs.TagStretches
open Text Page MarkupStretches

section Values

variable {s a rest : Text} {before signs after length : Nat} {value : Text}

theorem attributeGap_blanks (s : Text) : (s.takeWhile isBlank).length ≤ attributeGap s := by
  induction s with
  | nil => exact Nat.le_refl 0
  | cons c rest ih =>
    rw [List.takeWhile_cons, attributeGap]
    cases white : isBlank c with
    | true => simpa using ih
    | false => simp

/-- A gap between attributes that ends in the line ends at a character there. -/
theorem attributeGap_within (within : attributeGap (s ++ '\n' :: a) ≤ s.length) :
    attributeGap (s ++ '\n' :: a) = attributeGap s ∧ attributeGap s < s.length := by
  induction s with
  | nil => exact absurd within (by simp [attributeGap, show isBlank '\n' = true from rfl])
  | cons c rest ih =>
    rw [List.cons_append, attributeGap] at within ⊢
    rw [attributeGap, List.length_cons]
    rw [List.length_cons] at within
    cases rest with
    | nil =>
      split at within
      · simp [attributeGap, show isBlank '\n' = true from rfl] at within
      next other =>
        have other' : ¬(isBlank c || c == '/' && ([] : Text).head? != some '>') = true := by simpa using other
        rw [if_neg other, if_neg other']
        exact ⟨rfl, by simp⟩
    | cons d more =>
      rw [head_front (List.cons_ne_nil d more)] at within ⊢
      split at within
      next goes =>
        obtain ⟨same, short⟩ := ih (by omega)
        rw [if_pos goes, if_pos goes, same]
        exact ⟨rfl, by omega⟩
      next stops =>
        rw [if_neg stops, if_neg stops]
        exact ⟨rfl, by omega⟩

/-- The value of an attribute behind the blanks and the equals signs in front of it. -/
def valueAt? (before signs after : Nat) (rest : Text) : Option (Text × Nat) :=
  let bare (s : Text) : Text := s.takeWhile fun c => c != '>' && !isBlank c
  match rest with
  | c :: rest =>
    if c == '"' || c == '\'' then
      let quoted := rest.takeWhile (· != c)
      if quoted.length < rest.length then some (quoted, before + signs + after + quoted.length + 2)
      else if 0 < after then some ([], before + signs + after)
      else if 1 < signs then
        let value := bare ('=' :: c :: rest)
        some (value, before + signs - 1 + value.length)
      else none
    else
      let value := bare (c :: rest)
      some (value, before + signs + after + value.length)
  | [] => some ([], before + signs + after)

/-- What stands in front of the value of an attribute: blanks, equals signs and blanks again. -/
structure ValuePlace (s : Text) (before signs after : Nat) (rest : Text) : Prop where
  apart : (s.takeWhile isBlank).length = before
  signed : ((s.drop before).takeWhile (· == '=')).length = signs
  spaced : ((s.drop (before + signs)).takeWhile isBlank).length = after
  left : (s.drop (before + signs)).drop after = rest

theorem attributeValue_at (place : ValuePlace s before signs after rest) :
    attributeValue? s = if signs == 0 then none else valueAt? before signs after rest := by
  obtain ⟨rfl, rfl, rfl, rfl⟩ := place
  rfl

/-- What stands in front of a value is taken with it. -/
theorem valueAt_reach (found : valueAt? before signs after rest = some (value, length)) :
    before + signs + after ≤ length := by
  unfold valueAt? at found
  dsimp only at found
  split at found
  next c rest =>
    split at found
    · split at found
      · obtain ⟨-, rfl⟩ := Prod.mk.inj (Option.some.inj found)
        omega
      · split at found
        · obtain ⟨-, rfl⟩ := Prod.mk.inj (Option.some.inj found)
          omega
        · split at found
          · obtain ⟨rfl, rfl⟩ := Prod.mk.inj (Option.some.inj found)
            rw [List.takeWhile_cons_of_pos (p := fun c => c != '>' && !isBlank c) rfl, List.length_cons]
            omega
          · cases found
    · obtain ⟨-, rfl⟩ := Prod.mk.inj (Option.some.inj found)
      omega
  · obtain ⟨-, rfl⟩ := Prod.mk.inj (Option.some.inj found)
    omega

theorem valueAt_missing (missing : valueAt? before signs after rest = none) : after = 0 := by
  unfold valueAt? at missing
  dsimp only at missing
  split at missing
  · split at missing
    · split at missing
      · cases missing
      · split at missing
        · cases missing
        · omega
    · cases missing
  · cases missing

/-- A quote that is not closed in the line is not closed by what the lines behind it hold, as far as the value ends in
the line. -/
theorem valueAt_within (filled : rest ≠ []) (within : ∀ value length,
    valueAt? before signs after (rest ++ '\n' :: a) = some (value, length) → length ≤ before + signs + after + rest.length) :
    valueAt? before signs after (rest ++ '\n' :: a) = valueAt? before signs after rest := by
  obtain ⟨c, rest, rfl⟩ := List.exists_cons_of_ne_nil filled
  have bare : ∀ s : Text, (s ++ '\n' :: a).takeWhile (fun c => c != '>' && !isBlank c) =
      s.takeWhile fun c => c != '>' && !isBlank c := fun s => run_stopped rfl s a
  by_cases quote : (c == '"' || c == '\'') = true
  · have passes : ('\n' != c) = true := by
      rcases Bool.or_eq_true_iff.mp quote with same | same <;> (rw [beq_iff_eq] at same; subst same; rfl)
    have signed := bare ('=' :: c :: rest)
    simp only [List.cons_append] at signed within ⊢
    simp only [valueAt?, quote, if_true] at within ⊢
    rcases run_cases (p := (· != c)) passes rest a with ⟨same, short⟩ | ⟨long, whole⟩
    · have short' : (rest.takeWhile (· != c)).length < (rest ++ '\n' :: a).length := by
        rw [List.length_append]
        omega
      rw [same, if_pos short, if_pos short']
    · by_cases closed : ((rest ++ '\n' :: a).takeWhile (· != c)).length < (rest ++ '\n' :: a).length
      · rw [if_pos closed] at within
        have reach := within _ _ rfl
        rw [List.length_cons] at reach
        omega
      · rw [if_neg closed, whole, if_neg (Nat.lt_irrefl _), signed]
  · simp only [List.cons_append, valueAt?, if_neg quote]
    rw [← List.cons_append, bare]

/-- Blanks that end in the line end at the same sign, or where there is none, without the lines behind it. -/
theorem ValuePlace.signs_within (place : ValuePlace (s ++ '\n' :: a) before signs after rest) (bound : before ≤ s.length) :
    (s.takeWhile isBlank).length = before ∧ ((s.drop before).takeWhile (· == '=')).length = signs ∧
      before + signs ≤ s.length := by
  have signed := place.signed
  rw [drop_front bound, run_stopped rfl] at signed
  refine ⟨?_, signed, ?_⟩
  · rcases run_cases (p := isBlank) rfl s a with ⟨same, -⟩ | ⟨long, -⟩
    · rw [← same, place.apart]
    · rw [place.apart] at long
      omega
  · have most : ((s.drop before).takeWhile (· == '=')).length ≤ (s.drop before).length := (List.takeWhile_sublist _).length_le
    rw [signed, List.length_drop] at most
    omega

theorem ValuePlace.within (place : ValuePlace (s ++ '\n' :: a) before signs after rest)
    (bound : before + signs + after ≤ s.length) :
    ∃ front, front ≠ [] ∧ rest = front ++ '\n' :: a ∧ ValuePlace s before signs after front := by
  obtain ⟨apart, signed, room⟩ := place.signs_within (by omega)
  have spaced := place.spaced
  have left := place.left
  rw [drop_front room] at spaced left
  rcases run_cases (p := isBlank) rfl (s.drop (before + signs)) a with ⟨same, short⟩ | ⟨long, -⟩
  · rw [same] at spaced
    rw [spaced] at short
    rw [drop_front (Nat.le_of_lt short)] at left
    obtain ⟨c, more, filled⟩ := drop_filled short
    refine ⟨_, ?_, left.symm, apart, signed, spaced, rfl⟩
    rw [filled]
    exact List.cons_ne_nil c more
  · rw [spaced, List.length_drop] at long
    omega

/-- The blanks and signs in front of a value end in the line where the value ends in it with the gap behind. -/
theorem ValuePlace.reach {read : Text × Nat} (place : ValuePlace (s ++ '\n' :: a) before signs after rest)
    (given : (valueAt? before signs after rest).getD ([], 0) = read)
    (within : read.2 + attributeGap ((s ++ '\n' :: a).drop read.2) ≤ s.length) : before + signs + after ≤ s.length := by
  cases found : valueAt? before signs after rest with
  | some own =>
    rw [found] at given
    obtain rfl : own = read := given
    have inside := valueAt_reach found
    omega
  | none =>
    rw [found] at given
    obtain rfl : ([], 0) = read := given
    have blanks := attributeGap_blanks (s ++ '\n' :: a)
    rw [place.apart] at blanks
    obtain ⟨-, -, room⟩ := place.signs_within (Nat.le_trans blanks (by simpa using within))
    have tight := valueAt_missing found
    omega

/-- The value of an attribute with what stands behind it, as long as both end in the line. -/
theorem attributeValue_within {read : Text × Nat} (given : (attributeValue? (s ++ '\n' :: a)).getD ([], 0) = read)
    (within : read.2 + attributeGap ((s ++ '\n' :: a).drop read.2) ≤ s.length) :
    (attributeValue? s).getD ([], 0) = read ∧
      attributeGap ((s ++ '\n' :: a).drop read.2) = attributeGap (s.drop read.2) ∧
      read.2 + attributeGap (s.drop read.2) < s.length := by
  have bound : read.2 ≤ s.length := by omega
  have gaps := attributeGap_within (s := s.drop read.2) (a := a)
  rw [← drop_front bound, List.length_drop] at gaps
  obtain ⟨same, short⟩ := gaps (by omega)
  refine ⟨?_, same, by omega⟩
  obtain ⟨before, signs, after, rest, place⟩ : ∃ before signs after rest,
    ValuePlace (s ++ '\n' :: a) before signs after rest := ⟨_, _, _, _, rfl, rfl, rfl, rfl⟩
  rw [attributeValue_at place] at given
  by_cases signed : signs = 0
  · subst signed
    -- Without signs the gap begins with the blanks.
    obtain rfl : ([], 0) = read := given
    have blanks := attributeGap_blanks (s ++ '\n' :: a)
    rw [place.apart] at blanks
    obtain ⟨apart, unsigned, -⟩ := place.signs_within (Nat.le_trans blanks (by simpa using within))
    rw [attributeValue_at ⟨apart, unsigned, rfl, rfl⟩]
    rfl
  · rw [if_neg (by simpa using signed)] at given
    obtain ⟨front, filled, rfl, place'⟩ := place.within (place.reach given within)
    have sizes := congrArg List.length place'.left
    rw [List.length_drop, List.length_drop] at sizes
    rw [attributeValue_at place', if_neg (by simpa using signed), ← given, valueAt_within filled]
    intro value length found
    rw [found] at given
    obtain rfl : (value, length) = read := given
    dsimp only at bound
    have reach := valueAt_reach found
    omega

end Values

section Attributes

variable {s t a rest more : Text} {read : Text × Nat} {gap : Nat} {found : List (Text × Text)} {before c : Char}

/-- A character of the name of an attribute behind the first one. -/
def isAttributePart (c : Char) : Bool := !isGap c && c != '=' && c != '>'

/-- An attribute behind the first character of its name: the rest of the name, the value with its length, and the length
of the gap behind. -/
structure AttributeRead (t more : Text) (read : Text × Nat) (gap : Nat) : Prop where
  named : t.takeWhile isAttributePart = more
  valued : (attributeValue? (t.drop more.length)).getD ([], 0) = read
  apart : attributeGap ((t.drop more.length).drop read.2) = gap

theorem attributes_stop (stops : (!allowsAttribute before || isGap c || c == '>') = true) (t : Text) :
    attributes before (c :: t) = ([], c :: t) := by
  rw [attributes.eq_def]
  dsimp only
  rw [if_pos stops]

theorem attributes_step (goes : ¬(!allowsAttribute before || isGap c || c == '>') = true) (own : AttributeRead t more read gap) :
    attributes before (c :: t) =
      let taken := more.length + read.2 + gap
      let behind := attributes (((c :: t.take taken).getLast?).getD c) (t.drop taken)
      ((lower (c :: more), unescape read.1) :: behind.1, behind.2) := by
  obtain ⟨rfl, rfl, rfl⟩ := own
  rw [attributes.eq_def]
  dsimp only
  rw [if_neg goes]
  rfl

theorem attributeRead_exists (t : Text) : ∃ more read gap, AttributeRead t more read gap := ⟨_, _, _, rfl, rfl, rfl⟩

/-- An attribute that ends in the line ends in front of a character there. -/
theorem AttributeRead.within (own : AttributeRead (t ++ '\n' :: a) more read gap)
    (bound : more.length + read.2 + gap ≤ t.length) :
    AttributeRead t more read gap ∧ more.length + read.2 + gap < t.length := by
  obtain ⟨named, valued, apart⟩ := own
  rw [run_stopped rfl] at named
  rw [drop_front (by omega)] at valued apart
  have sizes : (t.drop more.length).length = t.length - more.length := List.length_drop
  obtain ⟨valued', same, short⟩ := attributeValue_within valued (by omega)
  rw [same] at apart
  exact ⟨⟨named, valued', apart⟩, by omega⟩

theorem attributes_shorter (before : Char) (s : Text) : (attributes before s).2.length ≤ s.length := by
  induction size : s.length using Nat.strongRecOn generalizing before s with
  | ind size ih =>
    subst size
    cases s with
    | nil => simp [attributes]
    | cons c t =>
      by_cases stops : (!allowsAttribute before || isGap c || c == '>') = true
      · exact Nat.le_of_eq (by rw [attributes_stop stops])
      · obtain ⟨more, read, gap, own⟩ := attributeRead_exists t
        rw [attributes_step stops own]
        have inner := ih (t.drop (more.length + read.2 + gap)).length
          (by rw [List.length_drop, List.length_cons]; omega) (((c :: t.take (more.length + read.2 + gap)).getLast?).getD c) _ rfl
        rw [List.length_drop] at inner
        rw [List.length_cons]
        dsimp only
        omega

/-- Attributes that end in the line are the same without the lines behind it. -/
theorem attributes_within (filled : s ≠ []) (reads : attributes before (s ++ '\n' :: a) = (found, rest))
    (room : ('\n' :: a).length ≤ rest.length) :
    ∃ front, front ≠ [] ∧ rest = front ++ '\n' :: a ∧ attributes before s = (found, front) := by
  induction size : s.length using Nat.strongRecOn generalizing before s found with
  | ind size ih =>
    subst size
    obtain ⟨c, t, rfl⟩ := List.exists_cons_of_ne_nil filled
    rw [List.cons_append] at reads
    by_cases stops : (!allowsAttribute before || isGap c || c == '>') = true
    · rw [attributes_stop stops] at reads
      obtain ⟨rfl, rfl⟩ := Prod.mk.inj reads
      exact ⟨c :: t, List.cons_ne_nil c t, rfl, attributes_stop stops t⟩
    · obtain ⟨more, read, gap, own⟩ := attributeRead_exists (t ++ '\n' :: a)
      rw [attributes_step stops own] at reads
      obtain ⟨rfl, behind⟩ := Prod.mk.inj reads
      have shorter := attributes_shorter (((c :: (t ++ '\n' :: a).take (more.length + read.2 + gap)).getLast?).getD c)
        ((t ++ '\n' :: a).drop (more.length + read.2 + gap))
      rw [behind, List.length_drop, List.length_append] at shorter
      have bound : more.length + read.2 + gap ≤ t.length := by
        rw [List.length_cons] at room shorter
        omega
      obtain ⟨own', short⟩ := own.within bound
      rw [List.take_append_of_le_length bound, drop_front bound] at reads behind
      obtain ⟨d, left, further⟩ := drop_filled short
      obtain ⟨front, filled', rfl, inner⟩ := ih (t.drop (more.length + read.2 + gap)).length
        (by rw [List.length_drop, List.length_cons]; omega) (by rw [further]; exact List.cons_ne_nil d left)
        (Prod.ext rfl behind) rfl
      refine ⟨front, filled', rfl, ?_⟩
      rw [attributes_step stops own', List.take_append_of_le_length bound, drop_front bound]
      dsimp only
      rw [inner]

end Attributes

section StartTags

variable {s a rest name gap front : Text} {found : List (Text × Text)} {markup : List Markup} {length : Nat}

/-- A start tag behind its opening bracket: its name, a gap, attributes, and what follows them. -/
structure StartRead (s name gap : Text) (found : List (Text × Text)) (rest : Text) : Prop where
  named : s.takeWhile (!endsTagName ·) = name
  apart : (s.drop name.length).takeWhile isGap = gap
  listed : attributes (((name ++ gap).getLast?).getD ' ') ((s.drop name.length).drop gap.length) = (found, rest)

/-- What a start tag is by what follows its attributes. -/
def startEnd (s name gap : Text) (found : List (Text × Text)) (rest : Text) : Construct :=
  let length := s.length - rest.length
  match rest with
  | [] => .unfinished
  | '>' :: _ => .found [.enter (lower name) found (found.isEmpty && gap.getLast? == some '/')] (length + 1)
  | '/' :: '>' :: _ => .found [.enter (lower name) found true] (length + 2)
  | c :: _ =>
    if c.isAlpha || c == '=' || c == '/' then .unfinished
    else .found [.text ('<' :: s.take length)] length

theorem startTag_at (own : StartRead s name gap found rest) : startTag s = startEnd s name gap found rest := by
  obtain ⟨rfl, rfl, listed⟩ := own
  exact congrArg (fun read : List (Text × Text) × Text => startEnd s _ _ read.1 read.2) listed

theorem startEnd_reach (ended : startEnd s name gap found rest = .found markup length) : s.length - rest.length ≤ length := by
  unfold startEnd at ended
  dsimp only at ended
  split at ended
  · cases ended
  · obtain ⟨-, rfl⟩ := Construct.found.inj ended
    omega
  · obtain ⟨-, rfl⟩ := Construct.found.inj ended
    omega
  · split at ended
    · cases ended
    · obtain ⟨-, rfl⟩ := Construct.found.inj ended
      exact Nat.le_refl _

theorem startEnd_within (filled : front ≠ [])
    (ended : startEnd (s ++ '\n' :: a) name gap found (front ++ '\n' :: a) = .found markup length) :
    startEnd s name gap found front = .found markup length := by
  have sizes : (s ++ '\n' :: a).length - (front ++ '\n' :: a).length = s.length - front.length := by
    rw [List.length_append, List.length_append]
    omega
  have part : (s ++ '\n' :: a).take (s.length - front.length) = s.take (s.length - front.length) :=
    List.take_append_of_le_length (Nat.sub_le _ _)
  unfold startEnd at ended ⊢
  dsimp only at ended ⊢
  rw [sizes, part] at ended
  obtain ⟨c, more, rfl⟩ := List.exists_cons_of_ne_nil filled
  by_cases closed : c = '>'
  · subst closed
    exact ended
  by_cases slash : c = '/'
  · subst slash
    cases more with
    | nil => exact ended
    | cons d more =>
      by_cases closed : d = '>'
      · subst closed
        exact ended
      · simp [closed] at ended
  · simpa [closed, slash] using ended

theorem startTag_within (tagged : startTag (s ++ '\n' :: a) = .found markup length) (within : length ≤ s.length) :
    startTag s = .found markup length := by
  obtain ⟨name, gap, found, rest, own⟩ : ∃ name gap found rest, StartRead (s ++ '\n' :: a) name gap found rest :=
    ⟨_, _, _, _, rfl, rfl, rfl⟩
  rw [startTag_at own] at tagged
  have reach := startEnd_reach tagged
  obtain ⟨named, apart, listed⟩ := own
  rw [run_stopped rfl] at named
  have bound : name.length ≤ s.length := named ▸ (List.takeWhile_sublist _).length_le
  rw [drop_front bound] at apart listed
  have shorter := attributes_shorter (((name ++ gap).getLast?).getD ' ') ((s.drop name.length ++ '\n' :: a).drop gap.length)
  rw [listed, List.length_drop, List.length_append, List.length_drop] at shorter
  dsimp only at shorter
  rw [List.length_append] at reach
  rcases run_cases (p := isGap) rfl (s.drop name.length) a with ⟨same, short⟩ | ⟨long, -⟩
  · rw [same] at apart
    rw [apart] at short
    rw [drop_front (Nat.le_of_lt short)] at listed
    obtain ⟨c, more, further⟩ := drop_filled short
    obtain ⟨front, filled, rfl, listed'⟩ := attributes_within (by rw [further]; exact List.cons_ne_nil c more) listed (by omega)
    rw [startTag_at ⟨named, apart, listed'⟩]
    exact startEnd_within filled tagged
  · rw [apart, List.length_drop] at long
    rw [List.length_cons] at shorter reach
    omega

end StartTags

end CascadeLens.Proofs.TagStretches
