import CascadeLens.Proofs.SelectorSeams
import CascadeLens.Proofs.SelectorSpelling

/-! A text is cut into the same tokens with another text behind it, as long as that goes on with none of them. A blank
that comes next is left out, or taken in by a last name that counts for the same with it and with the name behind. -/

namespace CascadeLens.Proofs.SelectorRereading
open Text Selector SelectorNames SelectorLexing SelectorEscapes SelectorLexemes SelectorSpelling SelectorSeams

/-- The arguments of a function, with its name in front. -/
def contentOf? : Token → Option Text
  | .simple (.pseudoFunction content) | .simple (.elementFunction content) => some content
  | _ => none

/-- No comment is left open for a text behind to end it, be it in all of a text or in the arguments of its tokens. -/
def Shut (s : Text) (tokens : List Token) (t : Text) : Prop :=
  Enclosed s ∨ ∀ token ∈ tokens, ∀ content ∈ contentOf? token, Still content t

/-- What a token at the front of a text is read as with any text behind: the token it was, or, if it takes up the text
and a blank comes next, a simple selector that takes in more and counts for the same. -/
inductive Reread (s : Text) (token : Token) (extra : Nat) (read : Text → Option (Token × Nat)) : Prop
  | same (inside : extra ≤ s.length) (kept : ∀ t, Seam t → Shut s [token] t → read t = some (token, extra))
  | taken {part : Simple} (simple : token = .simple part) (all : s.length = extra)
      (kept : ∀ t, Seam t → Unspaced t → read t = some (token, extra))
      (grown : ∀ c more, Seam (c :: more) → isBlank c = true → ∃ other : Simple, part.weight = other.weight ∧
        other ≠ part ∧ read (c :: more) = some (.simple other, extra + 1 + nameLength more))

section Tokens

variable {s : Text} {c : Char} {token : Token} {extra gap : Nat} {read other : Text → Option (Token × Nat)}

theorem Reread.congr (reread : Reread s token extra read) (alike : ∀ t, Seam t → other t = read t) :
    Reread s token extra other := by
  cases reread with
  | same inside kept => exact .same inside fun t seam shut => (alike t seam).trans (kept t seam shut)
  | taken simple all kept grown =>
    refine .taken simple all (fun t seam solid => (alike t seam).trans (kept t seam solid)) fun c more seam white => ?_
    obtain ⟨part, weight, apart, found⟩ := grown c more seam white
    exact ⟨part, weight, apart, (alike _ seam).trans found⟩

/-- A token behind one more character of its own. -/
theorem Reread.cons (reread : Reread s token extra read) (d : Char) :
    Reread (d :: s) token (extra + 1) fun t => (read t).map fun (token, length) => (token, length + 1) := by
  cases reread with
  | same inside kept =>
    refine .same (Nat.succ_le_succ inside) fun t seam shut => ?_
    rw [kept t seam (shut.imp_left Enclosed.tail)]
    rfl
  | taken simple all kept grown =>
    refine .taken simple (congrArg (· + 1) all) (fun t seam solid => by rw [kept t seam solid]; rfl) ?_
    intro c more seam white
    obtain ⟨part, weight, apart, found⟩ := grown c more seam white
    refine ⟨part, weight, apart, ?_⟩
    rw [found]
    exact congrArg (fun length => some (Token.simple part, length)) (Nat.add_right_comm _ _ 1)

/-- A simple selector made of a name, which counts for the same with every escape in it. -/
theorem grown_reread {length : Text → Nat} {make : Text → Simple} (grown : Grown length (s.drop gap)) (inside : gap ≤ s.length)
    (alike : ∀ name other, '\\' ∈ name → '\\' ∈ other → (make name).weight = (make other).weight)
    (distinct : Function.Injective make) :
    Reread s (.simple (make ((s.drop gap).take (length (s.drop gap))))) (gap + length (s.drop gap)) fun t =>
      some (.simple (make ((s.drop gap ++ t).take (length (s.drop gap ++ t)))), gap + length (s.drop gap ++ t)) := by
  obtain ⟨short, stays | taking⟩ := grown
  · have size := short
    rw [List.length_drop] at size
    refine .same (by omega) fun t seam _ => ?_
    rw [stays t seam.ends, List.take_append_of_le_length short]
  · have size := taking.all
    rw [List.length_drop] at size
    refine .taken rfl (by omega) (fun t seam solid => ?_) fun c more seam white => ?_
    · rw [taking.kept t seam.ends solid, List.take_append_of_le_length short]
    · have onward := taking.grown c more white
      have kept : s.drop gap <+: (s.drop gap ++ c :: more).take (length (s.drop gap ++ c :: more)) := by
        rw [onward, List.take_append, List.take_of_length_le (by rw [taking.all]; omega)]
        exact List.prefix_append _ _
      refine ⟨make ((s.drop gap ++ c :: more).take (length (s.drop gap ++ c :: more))), ?_, ?_, ?_⟩
      · rw [List.take_of_length_le taking.all.ge]
        exact alike _ _ taking.escape (kept.subset taking.escape)
      · intro same
        have lengths := congrArg List.length (distinct same)
        rw [onward, List.length_take, List.length_take, List.length_append, List.length_cons, taking.all] at lengths
        omega
      · rw [onward, ← Nat.add_assoc, ← Nat.add_assoc]

/-- A name behind a gap, with a text behind. -/
theorem spaced_behind (filled : identifierLength (s.drop (gapLength s)) ≠ 0)
    (whole : s.drop (gapLength s + identifierLength (s.drop (gapLength s))) ≠ ['\\']) :
    gapLength s ≤ s.length ∧ Grown identifierLength (s.drop (gapLength s)) ∧
      ∀ t, Seam t → gapLength (s ++ t) = gapLength s ∧ (s ++ t).drop (gapLength s) = s.drop (gapLength s) ++ t := by
  have left : s.drop (gapLength s) ≠ [] := fun empty => filled (by rw [empty]; rfl)
  have solid : (s.drop (gapLength s)).head? ≠ some '/' := by
    intro slash
    obtain ⟨more, spelt⟩ := List.head?_eq_some_iff.mp slash
    rw [spelt] at filled
    exact filled rfl
  have inside : gapLength s ≤ s.length := by
    by_contra long
    exact left (List.drop_eq_nil_iff.mpr (by omega))
  rw [← List.drop_drop] at whole
  refine ⟨inside, identifierLength_behind filled whole, fun t seam => ⟨?_, List.drop_append_of_le_length inside⟩⟩
  have room := (gapLength_behind solid seam).2
  rwa [if_neg left, Nat.add_zero] at room

theorem opens_behind {t : Text} (closed : opens s = false) (ends : Ends t) : opens (s ++ t) = false := by
  by_contra opening
  obtain ⟨name, more, named, whole⟩ := opens_iff.mp (by simpa using opening)
  rcases List.append_eq_append_iff.mp whole with ⟨later, rfl, rfl⟩ | ⟨later, rfl, behind⟩
  · cases later with
    | nil => exact (stops_apart (ends '(' rfl)).2.2 rfl
    | cons d later =>
      have letter := named.letters d (List.mem_append_right s List.mem_cons_self)
      have other := (stops_apart (ends d rfl)).1
      simp [isLetter, letter] at other
  · cases later with
    | nil =>
      obtain rfl : '(' :: more = t := behind
      exact (stops_apart (ends '(' rfl)).2.2 rfl
    | cons d later =>
      obtain ⟨rfl, -⟩ := List.cons.inj behind
      have opened : opens (name ++ '(' :: later) = true := opens_iff.mpr ⟨name, later, named, rfl⟩
      exact absurd (closed.symm.trans opened) (by decide)

/-- The selector that one or two colons make of a name. -/
def pseudo (colons : Nat) (name : Text) : Simple := if colons == 2 then .pseudoElement name else .pseudoClass name

theorem pseudo_alike (colons : Nat) (name other : Text) (escape : '\\' ∈ name) (escape' : '\\' ∈ other) :
    (pseudo colons name).weight = (pseudo colons other).weight := by
  unfold pseudo
  split
  · rfl
  · rw [Simple.weight, Simple.weight, not_legacy_of_escape escape, not_legacy_of_escape escape']

theorem pseudo_injective (colons : Nat) : Function.Injective (pseudo colons) := by
  intro name other same
  unfold pseudo at same
  split at same <;> cases same <;> rfl

theorem colonToken_behind {colons : Nat} (found : colonToken? colons s = some (token, extra)) (whole : s.drop extra ≠ ['\\']) :
    Reread s token extra fun t => colonToken? colons (s ++ t) := by
  by_cases opening : opens s = true
  · obtain ⟨name, rest, named, rfl⟩ := opens_iff.mp opening
    rw [colonToken_open named.letters named.filled] at found
    have opened : ∀ t, colonToken? colons (name ++ '(' :: rest ++ t) = colonToken? colons (name ++ '(' :: (rest ++ t)) := fun t => by
      rw [List.append_assoc, List.cons_append]
    split at found
    next function listed =>
      obtain ⟨rfl, rfl⟩ := Prod.mk.inj (Option.some.inj found)
      refine .same (by simp) fun t seam _ => ?_
      simp only [opened, colonToken_open named.letters named.filled, listed]
    next free =>
      obtain ⟨length, inner, same⟩ := Option.map_eq_some_iff.mp found
      obtain ⟨rfl, rfl⟩ := Prod.mk.inj same
      have content : (name ++ '(' :: rest).take (name.length + 1 + length) = name ++ '(' :: rest.take length := by
        rw [Nat.add_assoc, List.take_length_add_append, Nat.add_comm 1, List.take_succ_cons]
      have inner' : length ≤ rest.length := argumentsLength_inside inner
      refine .same (by rw [List.length_append, List.length_cons]; omega) fun t seam shut => ?_
      have closed : Enclosed rest ∨ Still (rest.take length) t := by
        refine shut.imp (fun enclosed => by simpa using enclosed.drop (name.length + 1)) fun still => ?_
        rw [content] at still
        refine (still _ List.mem_cons_self (name ++ '(' :: rest.take length) ?_).part ?_
        · split <;> rfl
        · exact (List.suffix_cons '(' _).trans (List.suffix_append name _)
      obtain ⟨-, onward⟩ := argumentsLength_behind inner closed seam
      have kept : (name ++ '(' :: (rest ++ t)).take (name.length + 1 + length) = name ++ '(' :: rest.take length := by
        rw [Nat.add_assoc, List.take_length_add_append, Nat.add_comm 1, List.take_succ_cons,
          List.take_append_of_le_length inner']
      simp only [opened, colonToken_open named.letters named.filled, free, onward, Option.map_some, kept, content]
  · have closed : opens s = false := by simpa using opening
    rw [colonToken_closed closed] at found
    split at found
    next => cases found
    next length filled =>
      obtain ⟨rfl, rfl⟩ := Prod.mk.inj (Option.some.inj found)
      obtain ⟨inside, grown, behind⟩ := spaced_behind filled whole
      refine (@grown_reread s _ identifierLength (pseudo colons) grown inside (pseudo_alike colons)
        (pseudo_injective colons)).congr fun t seam => ?_
      obtain ⟨room, dropped⟩ := behind t seam
      rw [colonToken_closed (opens_behind closed seam.ends), room, dropped]
      obtain ⟨length, size⟩ := Nat.exists_eq_succ_of_ne_zero (grown.filled filled seam.ends)
      simp only [size]
      rfl

theorem colon_behind (found : token? ':' s = some (token, extra)) (whole : s.drop extra ≠ ['\\']) :
    Reread s token extra fun t => token? ':' (s ++ t) := by
  cases s with
  | nil =>
    have gap : gapLength [] = 0 := gapLength_solid nofun
    simp [token?, colonToken?, gap, identifierLength, wordLength] at found
  | cons d rest =>
    by_cases double : d = ':'
    · subst double
      rw [token_double_colon] at found
      obtain ⟨⟨token, length⟩, inner, same⟩ := Option.map_eq_some_iff.mp found
      obtain ⟨rfl, rfl⟩ := Prod.mk.inj same
      exact ((colonToken_behind inner whole).cons ':').congr fun t _ => token_double_colon (rest ++ t)
    · have other : ∀ rest : Text, (d :: rest).head? ≠ some ':' := by simpa using double
      rw [token_single_colon (other rest)] at found
      exact (colonToken_behind found whole).congr fun t _ => token_single_colon (other _)

theorem dot_behind (found : token? '.' s = some (token, extra)) (whole : s.drop extra ≠ ['\\']) :
    Reread s token extra fun t => token? '.' (s ++ t) := by
  rw [token?.eq_def, if_neg (by decide), if_pos (by decide)] at found
  dsimp only at found
  split at found
  next => cases found
  next length filled =>
    obtain ⟨rfl, rfl⟩ := Prod.mk.inj (Option.some.inj found)
    obtain ⟨inside, grown, behind⟩ := spaced_behind filled whole
    have distinct : Function.Injective Simple.className := fun _ _ => Simple.className.inj
    refine (@grown_reread s _ identifierLength .className grown inside (fun _ _ _ _ => rfl) distinct).congr fun t seam => ?_
    obtain ⟨room, dropped⟩ := behind t seam
    obtain ⟨length, size⟩ := Nat.exists_eq_succ_of_ne_zero (grown.filled filled seam.ends)
    rw [token?.eq_def, if_neg (by decide), if_pos (by decide)]
    simp only [room, dropped, size]

theorem hash_behind (found : token? '#' s = some (token, extra)) (whole : s.drop extra ≠ ['\\']) :
    Reread s token extra fun t => token? '#' (s ++ t) := by
  rw [token?.eq_def, if_neg (by decide), if_neg (by decide), if_pos (by decide)] at found
  split at found
  next => cases found
  next length filled =>
    obtain ⟨rfl, rfl⟩ := Prod.mk.inj (Option.some.inj found)
    have grown := nameLength_behind whole
    have distinct : Function.Injective Simple.idName := fun _ _ => Simple.idName.inj
    have reread := @grown_reread s 0 nameLength .idName grown (Nat.zero_le _) (fun _ _ _ _ => rfl) distinct
    simp only [List.drop_zero, Nat.zero_add] at reread
    refine reread.congr fun t seam => ?_
    obtain ⟨length, size⟩ := Nat.exists_eq_succ_of_ne_zero (grown.filled filled seam.ends)
    rw [token?.eq_def, if_neg (by decide), if_neg (by decide), if_pos (by decide)]
    simp only [size]

theorem bracket_behind (found : token? '[' s = some (token, extra)) :
    Reread s token extra fun t => token? '[' (s ++ t) := by
  rw [token?.eq_def, if_neg (by decide), if_neg (by decide), if_neg (by decide), if_pos (by decide)] at found
  split at found
  next => cases found
  next length closed =>
    split at found
    next => cases found
    next long =>
      obtain ⟨rfl, rfl⟩ := Prod.mk.inj (Option.some.inj found)
      have inside := (attributeLength_behind closed []).1
      refine .same inside fun t _ _ => ?_
      rw [token?.eq_def, if_neg (by decide), if_neg (by decide), if_neg (by decide), if_pos (by decide)]
      simp only [(attributeLength_behind closed t).2, if_neg long,
        List.take_append_of_le_length (Nat.le_trans (Nat.sub_le length 1) inside)]

theorem column_behind (found : token? '|' s = some (token, extra)) :
    Reread s token extra fun t => token? '|' (s ++ t) := by
  have column : ∀ rest, token? '|' ('|' :: rest) = some (.combinator, 1) := fun _ => rfl
  cases s with
  | nil => cases found
  | cons d rest =>
    by_cases same : d = '|'
    · subst same
      obtain ⟨rfl, rfl⟩ := Prod.mk.inj (Option.some.inj ((column rest).symm.trans found))
      exact .same (by simp) fun t _ _ => column (rest ++ t)
    · simp [token?, same] at found

theorem sign_behind {sign : Token} (listed : (c, sign) ∈ signs) (found : token? c s = some (token, extra)) :
    Reread s token extra fun t => token? c (s ++ t) := by
  have all : ∀ rest, token? c rest = some (sign, 0) := by
    simp only [signs, List.mem_cons, Prod.mk.injEq, List.not_mem_nil, or_false] at listed
    rcases listed with ⟨rfl, rfl⟩ | ⟨rfl, rfl⟩ | ⟨rfl, rfl⟩ | ⟨rfl, rfl⟩ | ⟨rfl, rfl⟩ | ⟨rfl, rfl⟩ | ⟨rfl, rfl⟩
    all_goals exact fun _ => rfl
  obtain ⟨rfl, rfl⟩ := Prod.mk.inj (Option.some.inj ((all s).symm.trans found))
  exact .same (Nat.zero_le _) fun t _ _ => all (s ++ t)

theorem Reread.tail (reread : Reread (c :: s) token (extra + 1) read) (bare : contentOf? token = none)
    (later : ∀ t, Seam t → read t = (other t).map fun (token, length) => (token, length + 1)) : Reread s token extra other := by
  have peeled : ∀ {t : Text} {token : Token} {length : Nat}, Seam t → read t = some (token, length + 1) →
      other t = some (token, length) := by
    intro t token length seam known
    rw [later t seam] at known
    obtain ⟨⟨token', length'⟩, found, same⟩ := Option.map_eq_some_iff.mp known
    obtain ⟨rfl, size⟩ := Prod.mk.inj same
    rw [found, Nat.succ_injective size]
  cases reread with
  | same inside kept =>
    have shut : ∀ t, Shut (c :: s) [token] t := by
      refine fun t => Or.inr fun token' member content given => ?_
      rw [List.mem_singleton.mp member, bare] at given
      cases given
    exact .same (Nat.le_of_succ_le_succ inside) fun t seam _ => peeled seam (kept t seam (shut t))
  | taken simple all kept grown =>
    refine .taken simple (Nat.succ_injective all) (fun t seam solid => peeled seam (kept t seam solid)) fun d more seam white => ?_
    obtain ⟨part, weight, apart, found⟩ := grown d more seam white
    refine ⟨part, weight, apart, peeled seam ?_⟩
    rw [found, Nat.add_right_comm, Nat.add_right_comm extra]

/-- A character without a token of its own is the first of a type. -/
theorem token_other (apart : c ∉ marks.drop 3) (rest : Text) :
    token? c rest = match identifierLength (c :: rest) with
      | 0 => none
      | length + 1 => some (.simple (.typeName ((c :: rest).take (length + 1))), length) := by
  simp only [marks, List.drop_succ_cons, List.drop_zero, List.mem_cons, List.not_mem_nil, or_false, not_or] at apart
  cases length : identifierLength (c :: rest) <;> simp [token?, apart, length]

theorem typeName_behind (apart : c ∉ marks.drop 3) (found : token? c s = some (token, extra)) (whole : s.drop extra ≠ ['\\']) :
    Reread s token extra fun t => token? c (s ++ t) := by
  have goes := token_other apart
  rw [goes] at found
  split at found
  next => cases found
  next length size =>
    obtain ⟨rfl, rfl⟩ := Prod.mk.inj (Option.some.inj found)
    have filled : identifierLength (c :: s) ≠ 0 := by rw [size]; exact Nat.succ_ne_zero length
    have grown := identifierLength_behind filled (by rwa [size])
    have distinct : Function.Injective Simple.typeName := fun _ _ => Simple.typeName.inj
    have reread := @grown_reread (c :: s) 0 identifierLength .typeName grown (Nat.zero_le _) (fun _ _ _ _ => rfl) distinct
    simp only [List.drop_zero, Nat.zero_add, size] at reread
    refine reread.tail rfl fun t seam => ?_
    obtain ⟨later, size'⟩ := Nat.exists_eq_succ_of_ne_zero (grown.filled filled seam.ends)
    rw [List.cons_append] at size' ⊢
    simp only [goes, size']
    rfl

/-- A token is read again with a text behind that goes on with none. -/
theorem token_behind (found : token? c s = some (token, extra)) (whole : s.drop extra ≠ ['\\']) :
    Reread s token extra fun t => token? c (s ++ t) := by
  by_cases mark : c ∈ marks.drop 3
  · simp only [marks, List.drop_succ_cons, List.drop_zero, List.mem_cons, List.not_mem_nil, or_false] at mark
    rcases mark with rfl | rfl | rfl | rfl | rfl | rfl | rfl | rfl | rfl | rfl | rfl | rfl
    · exact colon_behind found whole
    · exact dot_behind found whole
    · exact hash_behind found whole
    · exact bracket_behind found
    · exact @sign_behind s '>' token extra .combinator (by decide) found
    · exact @sign_behind s '+' token extra .combinator (by decide) found
    · exact @sign_behind s '~' token extra .combinator (by decide) found
    · exact column_behind found
    · exact @sign_behind s '&' token extra (.simple .nesting) (by decide) found
    · exact @sign_behind s '*' token extra (.simple .universal) (by decide) found
    · exact @sign_behind s ',' token extra .comma (by decide) found
    · exact @sign_behind s ')' token extra .close (by decide) found
  · exact typeName_behind mark found whole

end Tokens

section Rows

variable {s t : Text} {c : Char} {tokens : List Token} {token : Token} {extra : Nat}

theorem tokens_drop_gap (s : Text) : tokens? (s.drop (gapLength s)) = tokens? s := by
  cases s with
  | nil => rw [List.drop_nil]
  | cons c rest =>
    cases length : gapLength (c :: rest) with
    | zero => rfl
    | succ extra =>
      rw [List.drop_succ_cons]
      conv_rhs => rw [tokens?, length]

theorem tokens_slash (open' : gapLength ('/' :: s) = 0) : tokens? ('/' :: s) = none := by
  have read : token? '/' s = none := by
    have plain : isAscii '/' = true := rfl
    simp [token?, identifierLength, wordLength, plain]
  rw [tokens?]
  simp only [open', read]

/-- What is left of a text that is cut into tokens begins with no slash. -/
theorem gap_solid (read : tokens? s = some tokens) : (s.drop (gapLength s)).head? ≠ some '/' := by
  intro slash
  obtain ⟨more, spelt⟩ := List.head?_eq_some_iff.mp slash
  have settled := gapLength_settled s
  rw [← tokens_drop_gap, spelt] at read
  rw [spelt] at settled
  rw [tokens_slash settled] at read
  cases read

theorem tokens_gap_behind (read : tokens? s = some tokens) (seam : Seam t) :
    tokens? (s ++ t) = tokens? (s.drop (gapLength s) ++ t) := by
  obtain ⟨inside, length⟩ := gapLength_behind (gap_solid read) seam
  rw [← tokens_drop_gap (s ++ t), length]
  split
  next last =>
    have all : s.length = gapLength s := Nat.le_antisymm (List.drop_eq_nil_iff.mp last) inside
    rw [last, ← List.drop_drop, ← all, List.drop_left, tokens_drop_gap, List.nil_append]
  next => rw [Nat.add_zero, List.drop_append_of_le_length inside]

theorem tokens_token (none : gapLength (c :: s) = 0) (read : token? c s = some (token, extra)) :
    tokens? (c :: s) = (tokens? (s.drop extra)).map (token :: ·) := by
  rw [tokens?]
  simp only [none, read]

/-- A blank in front is left out. -/
theorem tokens_blank (ascii : ∀ c, t.head? = some c → isBlank c = true → isAscii c = true) :
    tokens? (' ' :: t) = tokens? t := by
  have length : gapLength (' ' :: t) = 1 + gapLength t := by
    rw [gapLength_blanks (by decide), gapLength_run ascii, Nat.add_assoc]
  rw [← tokens_drop_gap (' ' :: t), length, Nat.add_comm, List.drop_succ_cons, tokens_drop_gap]

theorem tokens_lone_escape : tokens? ['\\'] = none := by
  have gap : gapLength ['\\'] = 0 := gapLength_solid fun c first => Option.some.inj first ▸ by decide
  have read : token? '\\' [] = none := by
    simp [token?, identifierLength, wordLength, nameLength, escapeLength]
  rw [tokens?]
  simp only [gap, read]

/-- A text is cut into its tokens again with a text behind. -/
def Stays (s : Text) (tokens : List Token) : Prop :=
  ∀ t, Seam t → Shut s tokens t → tokens? (s ++ t) = (tokens? t).map (tokens ++ ·)

/-- The last name of a text takes in a blank behind it, and so the name behind that, and counts for the same. -/
structure TakesIn (s : Text) (tokens : List Token) : Prop where
  kept : ∀ t, Seam t → Shut s tokens t → Unspaced t → tokens? (s ++ t) = (tokens? t).map (tokens ++ ·)
  grown : ∀ c more, Seam (c :: more) → Shut s tokens (c :: more) → isBlank c = true →
    ∃ others, Alike tokens others ∧ others ≠ tokens ∧
      tokens? (s ++ c :: more) = (tokens? (more.drop (nameLength more))).map (others ++ ·)

theorem Shut.later {s' : Text} {more : List Token} (shut : Shut s tokens t) (enclosed : Enclosed s → Enclosed s')
    (inside : more ⊆ tokens) : Shut s' more t :=
  shut.imp enclosed fun still token member => still token (inside member)

/-- With any text behind, a text stays what it is or takes in the blank that comes next. -/
theorem tokens_behind (read : tokens? s = some tokens) : Stays s tokens ∨ TakesIn s tokens := by
  fun_induction tokens? s generalizing tokens with
  | case1 =>
    obtain rfl := Option.some.inj read
    exact Or.inl fun t _ _ => by simp
  | case2 c rest extra length ih =>
    have whole : tokens? (c :: rest) = some tokens := by
      rw [← tokens_drop_gap, length]
      exact read
    have moved : ∀ t, Seam t → tokens? (c :: rest ++ t) = tokens? (rest.drop extra ++ t) := fun t seam => by
      rw [tokens_gap_behind whole seam, length, List.drop_succ_cons]
    have shut : ∀ t, Shut (c :: rest) tokens t → Shut (rest.drop extra) tokens t := fun t shut =>
      shut.later (fun enclosed => enclosed.tail.drop extra) (List.Subset.refl _)
    rcases ih read with stays | ⟨kept, grown⟩
    · exact Or.inl fun t seam closed => (moved t seam).trans (stays t seam (shut t closed))
    · refine Or.inr ⟨fun t seam closed solid => (moved t seam).trans (kept t seam (shut t closed) solid), ?_⟩
      intro d more seam closed white
      obtain ⟨others, alike, apart, onward⟩ := grown d more seam (shut _ closed) white
      exact ⟨others, alike, apart, (moved _ seam).trans onward⟩
  | case3 => cases read
  | case4 c rest none token extra found ih =>
    obtain ⟨later, inner, rfl⟩ := Option.map_eq_some_iff.mp read
    have whole : rest.drop extra ≠ ['\\'] := by
      intro lone
      rw [lone, tokens_lone_escape] at inner
      cases inner
    have front : tokens? (c :: rest) = some (token :: later) := by
      rw [tokens_token none found, inner]
      rfl
    have gap : ∀ t, Seam t → gapLength (c :: (rest ++ t)) = 0 := by
      intro t seam
      have length := (gapLength_behind (gap_solid front) seam).2
      rwa [none, if_neg (by simp), List.cons_append] at length
    have head : ∀ t, Shut (c :: rest) (token :: later) t → Shut rest [token] t := fun t shut =>
      shut.later Enclosed.tail (by simp)
    have tail : ∀ t, Shut (c :: rest) (token :: later) t → Shut (rest.drop extra) later t := fun t shut =>
      shut.later (fun enclosed => enclosed.tail.drop extra) (List.subset_cons_self token later)
    -- A token that may take in a blank is the last one. Behind all others it is for the rest to say.
    cases token_behind found whole with
    | same inside kept =>
      have onward : ∀ t, Seam t → Shut (c :: rest) (token :: later) t →
          tokens? (c :: rest ++ t) = (tokens? (rest.drop extra ++ t)).map (token :: ·) := fun t seam shut => by
        rw [List.cons_append, tokens_token (gap t seam) (kept t seam (head t shut)), List.drop_append_of_le_length inside]
      rcases ih inner with stays | ⟨kept', grown⟩
      · left
        intro t seam shut
        rw [onward t seam shut, stays t seam (tail t shut), Option.map_map]
        rfl
      · refine Or.inr ⟨fun t seam shut solid => ?_, fun d more seam shut white => ?_⟩
        · rw [onward t seam shut, kept' t seam (tail t shut) solid, Option.map_map]
          rfl
        · obtain ⟨others, alike, apart, longer⟩ := grown d more seam (tail _ shut) white
          refine ⟨token :: others, Alike.cons alike token, by simpa using apart, ?_⟩
          rw [onward _ seam shut, longer, Option.map_map]
          rfl
    | @taken part simple all kept grown =>
      subst simple all
      rw [List.drop_length] at inner
      obtain rfl := Option.some.inj ((tokens?.eq_1).symm.trans inner)
      refine Or.inr ⟨fun t seam _ solid => ?_, fun d more seam _ white => ?_⟩
      · rw [List.cons_append, tokens_token (gap t seam) (kept t seam solid), List.drop_left]
        rfl
      · obtain ⟨other, weight, apart, longer⟩ := grown d more seam white
        refine ⟨[.simple other], alike_single weight, by simpa using apart, ?_⟩
        rw [List.cons_append, tokens_token (gap _ seam) longer, Nat.add_assoc, ← List.drop_drop, List.drop_left, Nat.add_comm 1,
          List.drop_succ_cons]
        rfl

/-- Text that goes on with none of the tokens before it and has nothing in front to be left out. -/
def Firm (t : Text) : Prop := ∀ c, t.head? = some c → stops c = true ∧ isBlank c = false ∧ c ≠ '/' ∧ c ≠ '*'

theorem Firm.seam (firm : Firm t) : Seam t :=
  ⟨fun c first => (firm c first).1, fun c first => (firm c first).2.2⟩

theorem Firm.unspaced (firm : Firm t) : Unspaced t := fun c first => (firm c first).2.1

theorem firm_cons (sign : c ∈ [',', ')', '>', ':']) (rest : Text) : Firm (c :: rest) := by
  have all : ∀ c ∈ [',', ')', '>', ':'], stops c = true ∧ isBlank c = false ∧ c ≠ '/' ∧ c ≠ '*' := by decide
  intro d first
  obtain rfl := Option.some.inj first
  exact all c sign

/-- A text is cut into its tokens wherever it stands before one that is firm. -/
theorem lexes_of_tokens (enclosed : Enclosed s) (read : tokens? s = some tokens) : Lexes Firm s tokens := by
  intro rest firm
  rcases tokens_behind read with stays | takes
  · exact stays rest firm.seam (Or.inl enclosed)
  · exact takes.kept rest firm.seam (Or.inl enclosed) firm.unspaced

theorem seam_space (t : Text) : Seam (' ' :: t) :=
  ⟨fun c first => Option.some.inj first ▸ by decide, fun c first => Option.some.inj first ▸ by decide⟩

/-- A blank between a text and a firm one belongs to neither, or to the last name of the first. -/
theorem tokens_spaced (enclosed : Enclosed s) (read : tokens? s = some tokens) (firm : Firm t) :
    ∃ others, Alike tokens others ∧ tokens? (s ++ ' ' :: t) = (tokens? t).map (others ++ ·) := by
  rcases tokens_behind read with stays | takes
  · refine ⟨tokens, .same, ?_⟩
    rw [stays _ (seam_space t) (Or.inl enclosed), tokens_blank (ends_ascii firm.seam.ends)]
  · obtain ⟨others, alike, -, grown⟩ := takes.grown ' ' t (seam_space t) (Or.inl enclosed) (by decide)
    rw [nameLength_ends firm.seam.ends, List.drop_zero] at grown
    exact ⟨others, alike, grown⟩

end Rows

end CascadeLens.Proofs.SelectorRereading
