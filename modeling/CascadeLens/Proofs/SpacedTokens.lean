import CascadeLens.Proofs.SelectorBranches
import CascadeLens.Proofs.SelectorRereading
import CascadeLens.Proofs.SpacedText

/-! What becomes of the tokens of a selector when every run of blanks becomes one space. -/

namespace CascadeLens.Proofs.SpacedTokens
open Text Selector TextShape SelectorNames SelectorLexing SelectorEscapes SelectorLexemes SelectorSeams
open SelectorRereading SelectorBranches SpacedText

section Contents

variable {s : Text} {extra : Nat}

theorem stringLength_cons {c quote : Char} (plain : c ≠ '\\') (rest : Text) :
    stringLength? quote (c :: rest) =
      if c == quote then some 1 else if c == '\n' then none else (stringLength? quote rest).map (· + 1) := by
  rw [stringLength?.eq_4 quote c rest (fun same _ => plain same) fun _ _ same _ => plain same]

/-- A string stays closed where it was. -/
theorem stringLength_collapse {quote : Char} (found : stringLength? quote s = some extra) (solid : isBlank quote = false)
    (lag : Bool) :
    ∃ size, stringLength? quote (collapseFrom lag s) = some size ∧
      (collapseFrom lag s).drop size = collapse (s.drop extra) := by
  fun_induction stringLength? quote s generalizing extra lag with
  | case1 => cases found
  | case2 => cases found
  | case3 => cases found
  | case4 c rest line ih =>
    obtain ⟨inner, later, rfl⟩ := Option.map_eq_some_iff.mp found
    rw [collapseFrom_solid (by decide)]
    cases white : isBlank c
    · obtain ⟨size, onward, behind⟩ := ih later false
      refine ⟨size + 2, ?_, by simpa [collapseFrom_solid white] using behind⟩
      rw [collapseFrom_solid white]
      simp [stringLength?, line, onward]
    · obtain ⟨size, onward, behind⟩ := ih later true
      have spelt := collapse_blank white rest
      rw [collapse] at spelt
      refine ⟨size + 2, ?_, by simpa [spelt] using behind⟩
      rw [spelt]
      simp [stringLength?, onward]
  | case5 c rest last pair closes =>
    obtain rfl := Option.some.inj found
    obtain rfl : c = quote := by simpa using closes
    have plain : c ≠ '\\' := not_escape last pair
    refine ⟨1, ?_, ?_⟩
    all_goals rw [collapseFrom_solid solid]
    · rw [stringLength_cons plain, if_pos closes]
    · rfl
  | case6 => cases found
  | case7 c rest last pair closes line ih =>
    obtain ⟨inner, later, rfl⟩ := Option.map_eq_some_iff.mp found
    have plain : c ≠ '\\' := not_escape last pair
    cases white : isBlank c
    · obtain ⟨size, onward, behind⟩ := ih later false
      refine ⟨size + 1, ?_, by simpa [collapseFrom_solid white] using behind⟩
      rw [collapseFrom_solid white, stringLength_cons plain, if_neg closes, if_neg line, onward]
      rfl
    · obtain ⟨size, onward, behind⟩ := ih later true
      cases lag
      · have other : (' ' == quote) = false := by
          refine beq_false_of_ne ?_
          rintro rfl
          exact absurd solid (by decide)
        have spelt := collapse_blank white rest
        rw [collapse] at spelt
        refine ⟨size + 1, ?_, by simpa [spelt] using behind⟩
        rw [spelt, stringLength_cons (by decide), other, onward]
        rfl
      · exact ⟨size, by rw [collapseFrom_lag white, onward], by rw [collapseFrom_lag white, behind, List.drop_succ_cons]⟩

theorem attributeLength_collapse (found : attributeLength? s = some extra) (lag : Bool) :
    ∃ size, attributeLength? (collapseFrom lag s) = some (size + 1) ∧
      (collapseFrom lag s).drop (size + 1) = collapse (s.drop extra) := by
  fun_induction attributeLength? s generalizing extra lag with
  | case1 => cases found
  | case2 c rest bracket =>
    obtain rfl : c = ']' := by simpa using bracket
    obtain rfl := Option.some.inj found
    refine ⟨0, ?_, ?_⟩
    all_goals rw [collapseFrom_solid (by decide)]
    · rw [attributeLength?.eq_def]
      rfl
    · rfl
  | case3 => cases found
  | case4 c rest bracket quote length string ih =>
    obtain ⟨inner, later, rfl⟩ := Option.map_eq_some_iff.mp found
    have solid : isBlank c = false := by
      rcases (by simpa using quote : c = '"' ∨ c = '\'') with rfl | rfl <;> decide
    obtain ⟨size, closed, rest'⟩ := stringLength_collapse string solid false
    obtain ⟨more, onward, behind⟩ := ih later false
    rw [← collapse, ← rest'] at onward behind
    refine ⟨more + (size + 1), ?_, ?_⟩
    all_goals rw [collapseFrom_solid solid]
    · rw [attributeLength?.eq_def]
      simp only [bracket, quote, closed, onward, Bool.false_eq_true, if_false, if_true, Option.map_some]
      rw [Nat.add_right_comm]
    · have moved : inner + (length + 1) = length + inner + 1 := by omega
      have moved' : more + (size + 1) + 1 = size + (more + 1) + 1 := by omega
      rw [moved, moved', List.drop_succ_cons, List.drop_succ_cons, ← List.drop_drop, behind, List.drop_drop]
  | case5 c rest bracket quote ih =>
    obtain ⟨inner, later, rfl⟩ := Option.map_eq_some_iff.mp found
    have step : ∀ (d : Char) (more : Text), (d == ']') = false → (d == '"' || d == '\'') = false →
        attributeLength? (d :: more) = (attributeLength? more).map (· + 1) := by
      intro d more bracket quote
      rw [attributeLength?.eq_def]
      simp only [bracket, quote, Bool.false_eq_true, if_false]
    cases white : isBlank c
    · obtain ⟨size, onward, behind⟩ := ih later false
      refine ⟨size + 1, ?_, by simpa [collapseFrom_solid white] using behind⟩
      rw [collapseFrom_solid white, step c _ (by simpa using bracket) (by simpa using quote), onward]
      rfl
    · obtain ⟨size, onward, behind⟩ := ih later true
      cases lag
      · have spelt := collapse_blank white rest
        rw [collapse] at spelt
        refine ⟨size + 1, ?_, by simpa [spelt] using behind⟩
        rw [spelt, step ' ' _ (by decide) (by decide), onward]
        rfl
      · exact ⟨size, by rw [collapseFrom_lag white, onward], by rw [collapseFrom_lag white, behind, List.drop_succ_cons]⟩

/-- The content of a bracket stays one. -/
theorem inert_collapse {content : Text} (inert : Inert content) : Inert (collapse content) := by
  have closed : attributeLength? (content ++ [']']) = some (content.length + 1) := by
    have single : attributeLength? [']'] = some 1 := by rw [attributeLength?.eq_def]; rfl
    rw [inert, single, Nat.add_comm]
    rfl
  obtain ⟨size, found, behind⟩ := attributeLength_collapse closed false
  have none : (content ++ [']']).drop (content.length + 1) = [] := List.drop_eq_nil_iff.mpr (by simp)
  rw [none] at behind
  obtain ⟨other, whole, length, inert'⟩ := bracket_of_length found
  rw [behind, ← collapse, collapse_append_cons (by decide)] at whole
  obtain ⟨rfl, -⟩ := List.append_inj' whole rfl
  exact inert'

theorem balance_collapse {opener closer : Char} (solid : isBlank opener = false) (solid' : isBlank closer = false)
    (depth : Nat) (lag : Bool) (s : Text) :
    balanceFrom opener closer depth (collapseFrom lag s) = balanceFrom opener closer depth s := by
  have blank : ∀ (c : Char) (depth : Nat), isBlank c = true → balanceStep opener closer depth c = some depth := by
    intro c depth white
    have other : ∀ d, isBlank d = false → c ≠ d := by
      rintro d apart rfl
      exact absurd (white.symm.trans apart) (by decide)
    simp [balanceStep, other _ solid, other _ solid']
  induction s generalizing depth lag with
  | nil => rw [collapseFrom_nil]
  | cons c s ih =>
    cases white : isBlank c
    · rw [collapseFrom_solid white, balanceFrom, balanceFrom, List.foldlM_cons, List.foldlM_cons]
      exact congrArg (balanceStep opener closer depth c).bind (funext fun middle => ih middle false)
    · have skip : balanceFrom opener closer depth (c :: s) = balanceFrom opener closer depth s := by
        rw [balanceFrom, List.foldlM_cons, blank c depth white]
        rfl
      cases lag
      · have spelt := collapse_blank white s
        rw [collapse] at spelt
        rw [spelt, balanceFrom, List.foldlM_cons, blank ' ' depth (by decide), skip]
        exact ih depth true
      · rw [collapseFrom_lag white, skip, ih]

theorem bare_collapse (bare : holds ['/', '*'] s = false) (lag : Bool) : holds ['/', '*'] (collapseFrom lag s) = false := by
  rw [holds_comment_iff] at bare ⊢
  induction s generalizing lag with
  | nil => rw [collapseFrom_nil]; exact .nil
  | cons c s ih =>
    obtain ⟨own, others⟩ := List.isChain_cons.mp bare
    cases white : isBlank c
    · rw [collapseFrom_solid white]
      refine List.isChain_cons.mpr ⟨fun d first slash => ?_, ih others false⟩
      rw [← collapse, Option.mem_def, collapse_head, Option.map_eq_some_iff] at first
      obtain ⟨e, first, rfl⟩ := first
      split
      · decide
      · exact own e first slash
    · cases lag
      · rw [← collapse, collapse_blank white]
        exact List.isChain_cons.mpr ⟨fun _ _ slash => absurd slash (by decide), ih others true⟩
      · rw [collapseFrom_lag white]
        exact ih others true

end Contents

section Names

variable {rest name escape : Text} {c : Char}

theorem name_solid (own : Name rest name) (ascii : ∀ c ∈ name, isBlank c = true → isAscii c = true) :
    ∀ c, name.head? = some c → isBlank c = false := by
  intro c first
  cases own with
  | ended => cases first
  | letter letter more =>
    obtain rfl := Option.some.inj first
    exact letter_not_blank (ascii _ List.mem_cons_self) letter
  | escaped own more =>
    obtain rfl := Option.some.inj first
    decide

theorem name_before (own : Name rest name) (filled : name ≠ []) (ascii : ∀ c ∈ name, isBlank c = true → isAscii c = true)
    (t : Text) : ∀ c, (name ++ t).head? = some c → isBlank c = false := by
  rw [List.head?_append_of_ne_nil name filled]
  exact name_solid own ascii

theorem escape_collapse (own : Escape rest escape) : Escape rest (collapse escape) := by
  have solid : ∀ {digits : Text}, Code digits → ∀ c ∈ digits, isBlank c = false := fun code c member =>
    not_blank_of_isNameChar (letter_of_hex (code.hex c member))
  cases own with
  | @char c other line =>
    cases white : isBlank c
    · rw [collapse_cons white]
      exact .char other line
    · rw [collapse_blank white]
      exact .char (by decide) (by decide)
  | code code ends solid' =>
    rw [collapse_solid (solid code)]
    exact .code code ends solid'
  | @spaced digits space code white =>
    rw [collapse_behind_solid (hex_last code), collapse_solid (solid code), collapse_blank white]
    exact .spaced code (by decide)

/-- A name stays a name. -/
theorem name_collapse (own : Name rest name) (ascii : ∀ c ∈ name, isBlank c = true → isAscii c = true) :
    Name rest (collapse name) := by
  induction own with
  | ended none => exact .ended none
  | letter letter more ih =>
    obtain ⟨first, others⟩ := List.forall_mem_cons.mp ascii
    rw [collapse_cons (letter_not_blank first letter)]
    exact .letter letter (ih others)
  | @escaped escape name own more ih =>
    have inner : ∀ c ∈ name, isBlank c = true → isAscii c = true := fun c member => ascii c (by simp [member])
    have solid := name_solid more inner
    have same : (collapse name ++ rest).head? = (name ++ rest).head? := by
      rw [List.head?_append, List.head?_append, collapse_head]
      cases first : name.head? with
      | none => rfl
      | some d => simp [solid d first]
    rw [collapse_cons (by decide), collapse_before_solid solid]
    exact .escaped (escape_collapse (escape_of_head own same)) (ih inner)

/-- Only escapes have blanks in them. -/
theorem blank_free (own : Name rest name) (ascii : ∀ c ∈ name, isBlank c = true → isAscii c = true) (plain : '\\' ∉ name) :
    ∀ c ∈ name, isBlank c = false := by
  intro c member
  induction own with
  | ended => cases member
  | letter letter more ih =>
    obtain ⟨first, others⟩ := List.forall_mem_cons.mp ascii
    rcases List.mem_cons.mp member with rfl | later
    · exact letter_not_blank first letter
    · exact ih others (fun escape => plain (List.mem_cons_of_mem _ escape)) later
  | escaped => exact absurd List.mem_cons_self plain

theorem leads_collapse (leading : leads name = true) (ascii : ∀ c ∈ name, isBlank c = true → isAscii c = true) :
    leads (collapse name) = true := by
  rcases leads_cases leading with ⟨more, rfl⟩ | ⟨c, more, first, rfl⟩ | ⟨c, more, first, rfl⟩
  · rfl
  · have solid := word_not_blank (Or.inr first) (ascii c (by simp))
    rw [collapse_cons (by decide), collapse_cons solid]
    exact leads_of_hyphen first _
  · rw [collapse_cons (word_not_blank (Or.inr first) (ascii c (by simp)))]
    exact leads_of_begins first _

end Names

/-- The name that a token is read with. -/
def nameOf? : Token → Option Text
  | .simple (.typeName name) | .simple (.className name) | .simple (.idName name) | .simple (.pseudoClass name)
  | .simple (.pseudoElement name) => some name
  | _ => none

/-- A name that takes in a blank behind it, or ends with one that blanks behind it are put together with. -/
def Hungry (name : Text) : Prop := name.getLast?.any isBlank = true ∨ nameLength (name ++ [' ']) ≠ name.length

/-- A name that is one without the blanks at its end, too. -/
def Lasting (name : Text) : Prop := nameLength (trimRight name) = (trimRight name).length

instance (name : Text) : Decidable (Lasting name) := inferInstanceAs (Decidable (_ = _))

instance (name : Text) : Decidable (Hungry name) := inferInstanceAs (Decidable (_ ∨ _))

section Reading

variable {t name gap text : Text} {token : Token} {c : Char}

theorem tokens_collapseFrom (s : Text) : tokens? (collapseFrom true s) = tokens? (collapse s) := by
  cases s with
  | nil => rfl
  | cons c s =>
    cases white : isBlank c
    · rw [collapseFrom_solid white, collapse_cons white]
      rfl
    · have ascii : ∀ d, (collapseFrom true s).head? = some d → isBlank d = true → isAscii d = true := by
        intro d first blank
        obtain rfl := blank_in_collapse (List.mem_of_head? first) blank
        rfl
      rw [collapseFrom_lag white, collapse_blank white, tokens_blank ascii]

theorem ends_collapse (ends : Ends t) : Ends (collapse t) := by
  intro c first
  rw [collapse_head, Option.map_eq_some_iff] at first
  obtain ⟨d, first, rfl⟩ := first
  split
  · decide
  · exact ends d first

theorem unspaced_collapse (solid : Unspaced t) : Unspaced (collapse t) := by
  intro c first
  rw [collapse_head, Option.map_eq_some_iff] at first
  obtain ⟨d, first, rfl⟩ := first
  simp [solid d first]

/-- Names that differ only where both have an escape in them. -/
def Akin (name other : Text) : Prop := other = name ∨ '\\' ∈ name ∧ '\\' ∈ other

/-- A simple selector counts for the same with another name that is akin. -/
theorem Akin.similar {other : Text} {make : Text → Simple} (akin : Akin name other)
    (alike : '\\' ∈ name → '\\' ∈ other → (make name).weight = (make other).weight) :
    SelectorBranches.Similar (.simple (make name)) (.simple (make other)) := by
  rcases akin with rfl | ⟨escape, escape'⟩
  · exact .same _
  · exact .simple (alike escape escape')

/-- A name and the one that it becomes. -/
structure Renamed (name other : Text) : Prop where
  kept : collapse name <+: other
  akin : Akin name other

/-- What becomes of a name in front of a text, and what is left of the text behind it. -/
theorem name_onward (own : Name [] name) (ascii : ∀ c ∈ name, isBlank c = true → isAscii c = true) (ends : Ends t)
    (settled : Hungry name → Ends (trimLeft t)) :
    ∃ other rest, collapse (name ++ t) = other ++ rest ∧ Name rest other ∧ Ends rest ∧
      tokens? rest = tokens? (collapse t) ∧ Renamed name other := by
  have kept : Renamed name (collapse name) := by
    refine ⟨List.prefix_rfl, ?_⟩
    by_cases escape : '\\' ∈ name
    · exact Or.inr ⟨escape, mem_collapse (by decide) escape⟩
    · exact Or.inl (collapse_solid (blank_free own ascii escape))
  rcases name_behind own (by decide) with stays | ⟨-, opened⟩
  · have read : ∀ rest, Ends rest → Name rest (collapse name) := fun rest ends => name_collapse (stays rest ends) ascii
    by_cases last : name.getLast?.any isBlank = true
    · obtain ⟨c, found, white⟩ := (Option.any_eq_true _ _).mp last
      obtain ⟨front, rfl⟩ := List.getLast?_eq_some_iff.mp found
      have after : Ends (collapseFrom true t) := by
        rw [collapseFrom_trimLeft]
        exact ends_collapse (settled (Or.inl last))
      exact ⟨_, _, collapse_behind_blank white front t, read _ after, after, tokens_collapseFrom t, kept⟩
    · have solid : ∀ c, name.getLast? = some c → isBlank c = false := by
        intro c found
        rw [found] at last
        simpa using last
      have after := ends_collapse ends
      exact ⟨_, _, collapse_behind_solid solid t, read _ after, after, rfl, kept⟩
  · by_cases white : ∃ c more, t = c :: more ∧ isBlank c = true
    · -- The escape at the end takes in the one blank that is left of those behind it.
      obtain ⟨c, more, rfl, white⟩ := white
      have hungry : Hungry name := by
        have longer := (opened.grown ' ' [] [] (by decide) (.ended (by simp [nameLength]))).length
        rw [List.append_nil] at longer
        refine Or.inr ?_
        rw [longer, List.length_append]
        exact Nat.succ_ne_self _
      have after : Ends (collapseFrom true more) := by
        have cut : trimLeft (c :: more) = trimLeft more := by
          rw [trimLeft, List.dropWhile_cons, if_pos white]
          rfl
        rw [collapseFrom_trimLeft, ← cut]
        exact ends_collapse (settled hungry)
      have ascii' : ∀ d ∈ name ++ [c], isBlank d = true → isAscii d = true :=
        List.forall_mem_append.mpr ⟨ascii, by simpa using fun _ => ends_ascii ends c rfl white⟩
      have longer := opened.grown c [] _ white (.ended (nameLength_ends after))
      refine ⟨collapse (name ++ [c]), _, ?_, name_collapse longer ascii', after, ?_, ?_, Or.inr ⟨opened.escape, ?_⟩⟩
      · rw [List.append_cons, collapse_behind_blank white]
      · rw [← tokens_collapseFrom (c :: more), collapseFrom_lag white]
      · rw [collapse_append]
        exact List.prefix_append _ _
      · exact mem_collapse (by decide) (List.mem_append_left _ opened.escape)
    · have solid : Unspaced t := by
        intro c first
        obtain ⟨more, rfl⟩ := List.head?_eq_some_iff.mp first
        by_contra blank
        exact white ⟨c, more, rfl, by simpa using blank⟩
      have after := ends_collapse ends
      have read := name_collapse (opened.kept _ after (unspaced_collapse solid)) ascii
      exact ⟨_, _, collapse_before_solid solid name, read, after, rfl, kept⟩

theorem Renamed.leads {other : Text} (renamed : Renamed name other) (leading : leads name = true)
    (ascii : ∀ c ∈ name, isBlank c = true → isAscii c = true) : leads other = true := by
  obtain ⟨after, rfl⟩ := renamed.kept
  exact leads_append (leads_collapse leading ascii) after

theorem airy_collapse (room : Airy gap) : Airy (collapse gap) := by
  intro c member
  cases gap with
  | nil => cases member
  | cons d gap =>
    have single := collapse_blanks (List.cons_ne_nil d gap) (fun e inside => (room e inside).1) []
    rw [List.append_nil, collapseFrom_nil] at single
    rw [single] at member
    exact List.mem_singleton.mp member ▸ by decide

theorem collapse_colons {colons : Text} (two : Colons colons) (s : Text) : collapse (colons ++ s) = colons ++ collapse s := by
  have solid : isBlank ':' = false := by decide
  rcases two with rfl | rfl <;> simp only [List.cons_append, List.nil_append, collapse_cons solid]

theorem named_solid (named : Named name) : ∀ c ∈ name, isBlank c = false :=
  fun c member => not_blank_of_isNameChar (named.letters c member)

/-- No arguments are opened behind a name that ends. -/
theorem closed_name {rest : Text} (room : Airy gap) (own : Name rest name) (ends : Ends rest) :
    opens (gap ++ (name ++ rest)) = false := by
  by_contra opening
  obtain ⟨letters, more, named, whole⟩ := opens_iff.mp (by simpa using opening)
  cases gap with
  | cons d gap =>
    obtain ⟨letter, others, rfl⟩ := List.exists_cons_of_ne_nil named.filled
    obtain ⟨rfl, -⟩ := List.cons.inj whole
    have solid := not_blank_of_isNameChar (named.letters d List.mem_cons_self)
    exact absurd ((room d List.mem_cons_self).1.symm.trans solid) (by decide)
  | nil =>
    have run : Name ('(' :: more) letters := by
      obtain ⟨-, word⟩ := named
      clear whole
      induction letters with
      | nil => exact .ended (by simp [nameLength, show isNameChar '(' = false by decide, show isAscii '(' = true by decide])
      | cons c letters ih =>
        obtain ⟨first, others⟩ := List.forall_mem_cons.mp word
        exact .letter (by rw [isLetter, first, Bool.true_or]) (ih others)
    have same : name ++ rest = letters ++ '(' :: more := whole
    have size := own.length
    rw [same, run.length] at size
    obtain ⟨-, rfl⟩ := List.append_inj same size.symm
    exact absurd rfl (stops_apart (ends '(' rfl)).2.2

/-- What is written as a token is read as one that counts for the same, and what stands behind it is read on. -/
theorem lexeme_onward (own : Lexeme [] text token) (ascii : ∀ c ∈ text, isBlank c = true → isAscii c = true)
    (ends : ∀ name ∈ nameOf? token, Ends t ∧ (Hungry name → Ends (trimLeft t))) :
    ∃ other, SelectorBranches.Similar token other ∧
      tokens? (collapse (text ++ t)) = (tokens? (collapse t)).map (other :: ·) := by
  suffices spelt : ∃ other front rest, collapse (text ++ t) = front ++ rest ∧ Lexeme rest front other ∧
      SelectorBranches.Similar token other ∧ tokens? rest = tokens? (collapse t) by
    obtain ⟨other, front, rest, whole, own, similar, later⟩ := spelt
    have ascii' : ∀ c ∈ front, isBlank c = true → isAscii c = true := by
      intro c member white
      have within : c ∈ collapse (text ++ t) := whole ▸ List.mem_append_left rest member
      obtain rfl := blank_in_collapse within white
      rfl
    obtain ⟨c, more, rfl, solid, slash, read⟩ := own.read ascii'
    have step := tokens_step ⟨solid, slash⟩ read
    rw [List.drop_left, later] at step
    exact ⟨other, similar, by rw [whole, List.cons_append, step]⟩
  -- Only a name can take in what stands behind it. Every other token ends where it did.
  cases own with
  | @sign c token listed =>
    exact ⟨token, [c], _, collapse_cons (sign_solid listed) t, .sign listed, .same _, rfl⟩
  | column =>
    have solid : isBlank '|' = false := by decide
    refine ⟨_, ['|', '|'], _, ?_, .column, .same _, rfl⟩
    rw [List.cons_append, List.cons_append, collapse_cons solid, collapse_cons solid]
    rfl
  | typeName word =>
    obtain ⟨first, settled⟩ := ends text rfl
    obtain ⟨other, rest, whole, own, -, later, renamed⟩ := name_onward word.own ascii first settled
    exact ⟨_, other, rest, whole, .typeName ⟨own, renamed.leads word.leading ascii⟩,
      renamed.akin.similar fun _ _ => rfl, later⟩
  | @className gap name room word =>
    obtain ⟨first, settled⟩ := ends name rfl
    have inner : ∀ c ∈ name, isBlank c = true → isAscii c = true := fun c member => ascii c (by simp [member])
    obtain ⟨other, rest, whole, own, -, later, renamed⟩ := name_onward word.own inner first settled
    have solid := name_before word.own word.filled inner t
    refine ⟨_, '.' :: (collapse gap ++ other), rest, ?_, .className (airy_collapse room) ⟨own, renamed.leads word.leading inner⟩,
      renamed.akin.similar fun _ _ => rfl, later⟩
    rw [List.cons_append, collapse_cons (by decide), List.append_assoc, collapse_before_solid solid, whole]
    simp
  | @idName name filled own =>
    obtain ⟨first, settled⟩ := ends name rfl
    have inner : ∀ c ∈ name, isBlank c = true → isAscii c = true := fun c member => ascii c (by simp [member])
    obtain ⟨other, rest, whole, own, -, later, renamed⟩ := name_onward own inner first settled
    have left : other ≠ [] := fun none => collapse_filled filled (List.prefix_nil.mp (none ▸ renamed.kept))
    refine ⟨_, '#' :: other, rest, ?_, .idName left own, renamed.akin.similar fun _ _ => rfl, later⟩
    rw [List.cons_append, collapse_cons (by decide), whole]
    rfl
  | @bracket content filled inert =>
    refine ⟨_, '[' :: (collapse content ++ [']']), _, ?_, .bracket (collapse_filled filled) (inert_collapse inert),
      .simple rfl, rfl⟩
    have closer : isBlank ']' = false := by decide
    rw [List.cons_append, collapse_cons (by decide), List.append_assoc, List.singleton_append, collapse_append_cons closer]
    simp
  | @pseudo colons gap name two room word closed =>
    obtain ⟨first, settled⟩ := ends name (by split <;> rfl)
    have inner : ∀ c ∈ name, isBlank c = true → isAscii c = true := fun c member => ascii c (by simp [member])
    obtain ⟨other, rest, whole, own, stops, later, renamed⟩ := name_onward word.own inner first settled
    have solid := name_before word.own word.filled inner t
    refine ⟨.simple (pseudo colons.length other), colons ++ (collapse gap ++ other), rest, ?_,
      .pseudo two (airy_collapse room) ⟨own, renamed.leads word.leading inner⟩ (closed_name (airy_collapse room) own stops),
      renamed.akin.similar (pseudo_alike colons.length name other), later⟩
    rw [List.append_assoc, List.append_assoc, collapse_colons two, collapse_before_solid solid, whole]
    simp
  | @function colons name arguments two named free balanced bare =>
    have inside : Paired '(' ')' (collapse arguments) := (balance_collapse (by decide) (by decide) 0 false arguments).trans balanced
    refine ⟨_, colons ++ (name ++ '(' :: (collapse arguments ++ [')'])), _, ?_,
      .function two named free inside (bare_collapse bare false), ?_, rfl⟩
    · have opener : isBlank '(' = false := by decide
      have closer : isBlank ')' = false := by decide
      rw [List.append_assoc, List.append_assoc, List.cons_append, List.append_assoc, List.singleton_append,
        collapse_colons two, collapse_append_cons opener, collapse_append_cons closer, collapse_solid (named_solid named)]
      simp
    · split <;> exact .simple rfl
  | @list colons name function two named listed =>
    refine ⟨_, colons ++ (name ++ ['(']), _, ?_, .list two named listed, .same _, rfl⟩
    have opener : isBlank '(' = false := by decide
    rw [List.append_assoc, List.append_assoc, List.singleton_append, collapse_colons two, collapse_append_cons opener,
      collapse_solid (named_solid named)]
    simp

/-- Without the blanks at its end a name is one that counts for the same, if it is one at all. -/
theorem name_trimmed (own : Name [] name) (ascii : ∀ c ∈ name, isBlank c = true → isAscii c = true) (filled : name ≠ [])
    (lasting : Lasting name) :
    Name [] (trimRight name) ∧ trimRight name ≠ [] ∧ (leads name = true → leads (trimRight name) = true) ∧
      Akin name (trimRight name) := by
  by_cases escape : '\\' ∈ name
  · obtain ⟨after, whole, white⟩ := trimRight_spec name
    have inside : '\\' ∈ trimRight name := by
      rw [whole] at escape
      exact (List.mem_append.mp escape).resolve_right fun later => absurd (white _ later) (by decide)
    have taken := name_of_length (trimRight name)
    rw [lasting, List.drop_length, List.take_length] at taken
    refine ⟨taken, List.ne_nil_of_mem inside, fun leading => ?_, Or.inr ⟨escape, inside⟩⟩
    exact leads_shortened leading ⟨after, whole.symm⟩ inside
  · have solid : ∀ c ∈ name, isBlank c = false := blank_free own ascii escape
    have same : trimRight name = name := (Shortened.self fun c found => solid c (List.mem_of_getLast? found)).trimRight
    rw [same]
    exact ⟨own, filled, id, Or.inl rfl⟩

/-- A token at the end of a text, without the blanks there. -/
theorem lexeme_trimmed (own : Lexeme [] text token) (ascii : ∀ c ∈ text, isBlank c = true → isAscii c = true)
    (lasting : ∀ name ∈ nameOf? token, Lasting name) :
    ∃ other, Lexeme [] (trimRight text) other ∧ SelectorBranches.Similar token other := by
  have closed : ∀ {front : Text} {c : Char}, isBlank c = false → trimRight (front ++ [c]) = front ++ [c] :=
    fun solid => (Shortened.closed solid).trimRight
  cases own with
  | @sign c token listed =>
    exact ⟨token, (@closed [] c (sign_solid listed)).symm ▸ .sign listed, .same _⟩
  | column => exact ⟨_, (@closed ['|'] '|' (by decide)).symm ▸ .column, .same _⟩
  | typeName word =>
    obtain ⟨own, -, leading, akin⟩ := name_trimmed word.own ascii word.filled (lasting text rfl)
    exact ⟨_, .typeName ⟨own, leading word.leading⟩, akin.similar fun _ _ => rfl⟩
  | @className gap name room word =>
    have inner : ∀ c ∈ name, isBlank c = true → isAscii c = true := fun c member => ascii c (by simp [member])
    obtain ⟨own, filled, leading, akin⟩ := name_trimmed word.own inner word.filled (lasting name rfl)
    have cut : trimRight ('.' :: (gap ++ name)) = '.' :: (gap ++ trimRight name) := trimRight_append filled ('.' :: gap)
    exact ⟨_, cut ▸ .className room ⟨own, leading word.leading⟩, akin.similar fun _ _ => rfl⟩
  | @idName name filled own =>
    have inner : ∀ c ∈ name, isBlank c = true → isAscii c = true := fun c member => ascii c (by simp [member])
    obtain ⟨own, left, -, akin⟩ := name_trimmed own inner filled (lasting name rfl)
    have cut : trimRight ('#' :: name) = '#' :: trimRight name := trimRight_append left ['#']
    exact ⟨_, cut ▸ .idName left own, akin.similar fun _ _ => rfl⟩
  | @bracket content filled inert => exact ⟨_, (@closed ('[' :: content) ']' (by decide)).symm ▸ .bracket filled inert, .same _⟩
  | @pseudo colons gap name two room word =>
    have inner : ∀ c ∈ name, isBlank c = true → isAscii c = true := fun c member => ascii c (by simp [member])
    obtain ⟨own, filled, leading, akin⟩ := name_trimmed word.own inner word.filled (lasting name (by split <;> rfl))
    have cut : trimRight (colons ++ (gap ++ name)) = colons ++ (gap ++ trimRight name) := by
      rw [← List.append_assoc, trimRight_append filled, List.append_assoc]
    exact ⟨.simple (pseudo colons.length (trimRight name)),
      cut ▸ .pseudo two room ⟨own, leading word.leading⟩ (closed_name room own nofun),
      akin.similar (pseudo_alike colons.length name (trimRight name))⟩
  | @function colons name arguments two named free balanced bare =>
    have same := @closed (colons ++ (name ++ '(' :: arguments)) ')' (by decide)
    simp only [List.append_assoc, List.cons_append] at same
    exact ⟨_, same.symm ▸ .function two named free balanced bare, .same _⟩
  | @list colons name function two named listed =>
    have same := @closed (colons ++ name) '(' (by decide)
    rw [List.append_assoc] at same
    exact ⟨_, same.symm ▸ .list two named listed, .same _⟩

end Reading

end CascadeLens.Proofs.SpacedTokens
