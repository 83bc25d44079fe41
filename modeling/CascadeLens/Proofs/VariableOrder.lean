import CascadeLens.Analysis.Variables
import CascadeLens.Proofs.FeatureSearch
import CascadeLens.Proofs.KeyedFold
import CascadeLens.Proofs.SelectorLexing
import Mathlib.Order.WellFounded

/-! The order in which the variables of matched rules are listed. Every variable is listed once. Values follow one
another, but of one value the custom properties come first and the names with a dollar sign behind them, so the order is
that of first use unless a name with a dollar sign is new in front of a custom property that is new in the same value. -/

namespace CascadeLens.Proofs.VariableOrder
open Text TextShape FeatureSearch KeyedFold SelectorLexing

/-- How a text begins that uses a variable, with the name and what follows it. A name is read as far as it goes. -/
inductive Use : Text → Text → Text → Prop
  | custom {gap name rest : Text} (blanks : ∀ c ∈ gap, isBlank c = true) (filled : name ≠ [])
      (letters : ∀ c ∈ name, isNameChar c = true) (ends : ∀ c, rest.head? = some c → isNameChar c = false) :
      Use ("var(".toList ++ (gap ++ '-' :: '-' :: (name ++ rest))) ('-' :: '-' :: name) rest
  | sigil {first : Char} {name rest : Text} (begins : first.isAlpha = true ∨ first = '_')
      (letters : ∀ c ∈ name, isNameChar c = true) (ends : ∀ c, rest.head? = some c → isNameChar c = false) :
      Use ('$' :: first :: (name ++ rest)) ('$' :: first :: name) rest

/-- The values of the declarations of matched rules, in the order in which they are read. -/
def valuesOf (found : List Match) : List Text :=
  found.flatMap fun item => (splitTopLevel ';' item.rule.body).filterMap fun declaration => (cut ':' declaration).2

/-- The value that a use stands in, and the offset there. -/
abbrev Place := Nat × Nat

def Before (place other : Place) : Prop := place.1 < other.1 ∨ place.1 = other.1 ∧ place.2 < other.2

def UsedAt (values : List Text) (place : Place) (name : Text) : Prop :=
  ∃ value rest, values[place.1]? = some value ∧ Use (value.drop place.2) name rest

structure FirstAt (values : List Text) (place : Place) (name : Text) : Prop where
  used : UsedAt values place name
  first : ∀ other, UsedAt values other name → ¬Before other place

/-- Of two names the one listed first is used before the other one is used at all. -/
def InOrder (values names : List Text) : Prop :=
  names.Pairwise fun name later => ∃ place, UsedAt values place name ∧ ∀ other, UsedAt values other later → Before place other

/-- No use of a custom property begins inside of another one. -/
def Apart (value : Text) : Prop :=
  ∀ offset inner name other rest behind, Use (value.drop offset) ('-' :: name) rest →
    Use (value.drop inner) ('-' :: other) behind → offset < inner → value.length ≤ inner + rest.length

/-- No name with a dollar sign is new in front of a custom property that is new in the same value. -/
def CustomFirst (values : List Text) : Prop :=
  ∀ line offset inner sigil custom, FirstAt values (line, offset) ('$' :: sigil) →
    FirstAt values (line, inner) ('-' :: custom) → inner < offset

section Reading

variable {s name rest behind : Text} {c : Char} {offset : Nat}

theorem var_argument {gap : Text} (blanks : ∀ c ∈ gap, isBlank c = true) (behind : Text) :
    varArgument? ("var(".toList ++ (gap ++ '-' :: behind)) = some ('-' :: behind) := by
  have opened : drop? "var(".toList ("var(".toList ++ (gap ++ '-' :: behind)) = some (gap ++ '-' :: behind) :=
    drop_eq_some.mpr rfl
  rw [varArgument?, opened, Option.map_some, trimLeft_behind_blanks blanks]
  rfl

theorem custom_of_use (use : Use s ('-' :: name) rest) :
    varArgument? s = some ('-' :: (name ++ rest)) ∧ customName? ('-' :: (name ++ rest)) = some ('-' :: name) := by
  cases use with
  | custom blanks filled letters ends =>
    refine ⟨var_argument blanks _, ?_⟩
    simp only [List.cons_append, customName?, takeWhile_append letters ends]

/-- The name characters in front of a text, and what stops them. -/
theorem name_run (s : Text) : ∃ rest, s = s.takeWhile isNameChar ++ rest ∧
    (∀ c ∈ s.takeWhile isNameChar, isNameChar c = true) ∧ ∀ c, rest.head? = some c → isNameChar c = false := by
  refine ⟨s.dropWhile isNameChar, List.takeWhile_append_dropWhile.symm, List.all_eq_true.mp List.all_takeWhile, ?_⟩
  intro c first
  have stopped := List.head?_dropWhile_not isNameChar s
  rw [first] at stopped
  simpa using stopped

theorem use_of_custom {argument : Text} (opened : varArgument? s = some argument) (named : customName? argument = some name) :
    ∃ letters rest, name = '-' :: letters ∧ argument = name ++ rest ∧ Use s name rest := by
  obtain ⟨behind, found, rfl⟩ := Option.map_eq_some_iff.mp opened
  obtain ⟨gap, whole, blanks⟩ := trimLeft_spec behind
  unfold customName? at named
  split at named
  next more shape =>
    obtain ⟨rest, parts, letters, ends⟩ := name_run more
    split at named
    · cases named
    next filled =>
      obtain rfl := Option.some.inj named
      refine ⟨'-' :: more.takeWhile isNameChar, rest, rfl, ?_, ?_⟩
      · rw [shape, List.cons_append, List.cons_append, ← parts]
      · rw [drop_eq_some.mp found, whole, shape]
        nth_rewrite 1 [parts]
        exact Use.custom blanks filled letters ends
  · cases named

theorem dollar_of_use (use : Use s ('$' :: name) rest) : dollarName? s = some ('$' :: name) := by
  cases use with
  | @sigil first name rest begins letters ends =>
    have allowed : (first.isAlpha || first == '_') = true := by simpa using begins
    rw [dollarName?, if_pos allowed, takeWhile_append letters ends]

theorem use_of_dollar (named : dollarName? s = some name) : ∃ letters rest, name = '$' :: letters ∧ Use s name rest := by
  unfold dollarName? at named
  split at named
  next first more =>
    obtain ⟨rest, parts, letters, ends⟩ := name_run more
    split at named
    next allowed =>
      obtain rfl := Option.some.inj named
      refine ⟨first :: more.takeWhile isNameChar, rest, rfl, ?_⟩
      nth_rewrite 1 [parts]
      exact Use.sigil (by simpa using allowed) letters ends
    · cases named
  · cases named

theorem use_front (use : Use s name rest) : ∃ front, s = front ++ rest ∧ front ≠ [] := by
  cases use with
  | @custom gap name rest => exact ⟨"var(".toList ++ (gap ++ '-' :: '-' :: name), by simp, by simp⟩
  | @sigil first name rest => exact ⟨'$' :: first :: name, by simp, by simp⟩

theorem name_cases (use : Use s name rest) : (∃ letters, name = '-' :: letters) ∨ ∃ letters, name = '$' :: letters := by
  cases use with
  | custom => exact .inl ⟨_, rfl⟩
  | sigil => exact .inr ⟨_, rfl⟩

/-- The name that is used where a text begins. -/
def useAt? (s : Text) : Option Text := ((varArgument? s).bind customName?).or (dollarName? s)

theorem useAt_iff : useAt? s = some name ↔ ∃ rest, Use s name rest := by
  rw [useAt?, Option.or_eq_some_iff]
  constructor
  · rintro (custom | ⟨-, dollar⟩)
    · obtain ⟨argument, opened, named⟩ := Option.bind_eq_some_iff.mp custom
      obtain ⟨letters, rest, -, -, use⟩ := use_of_custom opened named
      exact ⟨rest, use⟩
    · obtain ⟨letters, rest, -, use⟩ := use_of_dollar dollar
      exact ⟨rest, use⟩
  · rintro ⟨rest, use⟩
    rcases name_cases use with ⟨letters, rfl⟩ | ⟨letters, rfl⟩
    · obtain ⟨opened, named⟩ := custom_of_use use
      exact .inl (Option.bind_eq_some_iff.mpr ⟨_, opened, named⟩)
    · refine .inr ⟨?_, dollar_of_use use⟩
      -- No text begins with a dollar sign and with `var`.
      cases use with
      | sigil => rfl

end Reading

section Values

variable {s name rest : Text} {offset : Nat}

def isCustom (name : Text) : Bool := name.head? == some '-'

/-- The names used in a value, with their offsets. -/
def usesFrom (offset : Nat) : Text → List (Nat × Text)
  | [] => []
  | c :: rest => (useAt? (c :: rest)).toList.map (offset, ·) ++ usesFrom (offset + 1) rest

def customUses (offset : Nat) (s : Text) : List (Nat × Text) := (usesFrom offset s).filter fun use => isCustom use.2

def dollarUses (offset : Nat) (s : Text) : List (Nat × Text) := (usesFrom offset s).filter fun use => !isCustom use.2

theorem mem_usesFrom {use : Nat × Text} : use ∈ usesFrom offset s ↔
    ∃ inner rest, use.1 = offset + inner ∧ Use (s.drop inner) use.2 rest := by
  induction s generalizing offset with
  | nil =>
    constructor
    · intro member
      cases member
    · rintro ⟨inner, rest, -, used⟩
      rw [List.drop_nil] at used
      cases used
  | cons c rest ih =>
    rw [usesFrom, List.mem_append, ih]
    constructor
    · rintro (here | ⟨inner, behind, place, used⟩)
      · obtain ⟨name, found, rfl⟩ := List.mem_map.mp here
        obtain ⟨behind, used⟩ := useAt_iff.mp (Option.mem_toList.mp found)
        exact ⟨0, behind, rfl, used⟩
      · exact ⟨inner + 1, behind, by omega, used⟩
    · rintro ⟨inner, behind, place, used⟩
      cases inner with
      | zero =>
        refine .inl (List.mem_map.mpr ⟨use.2, Option.mem_toList.mpr (useAt_iff.mpr ⟨behind, used⟩), ?_⟩)
        exact Prod.ext place.symm rfl
      | succ inner => exact .inr ⟨inner, behind, by omega, used⟩

theorem usesFrom_sorted (offset : Nat) (s : Text) : (usesFrom offset s).Pairwise fun use later => use.1 < later.1 := by
  induction s generalizing offset with
  | nil => exact .nil
  | cons c rest ih =>
    rw [usesFrom, List.pairwise_append]
    refine ⟨?_, ih (offset + 1), ?_⟩
    · cases useAt? (c :: rest) with
      | none => exact .nil
      | some name => exact List.pairwise_singleton _ _
    · intro use here later behind
      obtain ⟨name, -, rfl⟩ := List.mem_map.mp here
      obtain ⟨inner, -, place, -⟩ := mem_usesFrom.mp behind
      dsimp only
      omega

theorem dollarName_of_custom (use : Use s ('-' :: name) rest) : dollarName? s = none := by
  cases use with
  | custom => rfl

theorem dollarNames_uses (offset : Nat) (s : Text) : dollarNames s = (dollarUses offset s).map (·.2) := by
  induction s generalizing offset with
  | nil => rfl
  | cons c more ih =>
    rw [dollarNames, dollarUses, usesFrom, List.filter_append, List.map_append, ← dollarUses, ← ih]
    cases used : useAt? (c :: more) with
    | none =>
      have none_here : dollarName? (c :: more) = none := (Option.or_eq_none_iff.mp used).2
      rw [none_here]
      rfl
    | some name =>
      obtain ⟨rest, use⟩ := useAt_iff.mp used
      rcases name_cases use with ⟨letters, rfl⟩ | ⟨letters, rfl⟩
      · rw [dollarName_of_custom use]
        rfl
      · rw [dollar_of_use use]
        rfl

theorem customNames_use (use : Use s ('-' :: name) rest) : customNames s = ('-' :: name) :: customNames rest := by
  obtain ⟨front, whole, filled⟩ := use_front use
  obtain ⟨c, front, rfl⟩ := List.exists_cons_of_ne_nil filled
  obtain ⟨opened, named⟩ := custom_of_use use
  rw [List.cons_append] at whole
  subst whole
  have behind : (front ++ rest).drop ((front ++ rest).length - (('-' :: (name ++ rest)).length - ('-' :: name).length)) = rest := by
    have width : (front ++ rest).length - (('-' :: (name ++ rest)).length - ('-' :: name).length) = front.length := by
      simp only [List.length_append, List.length_cons]
      omega
    rw [width, List.drop_left]
  rw [customNames, opened]
  dsimp only
  rw [named]
  dsimp only
  rw [behind]

theorem customNames_other {c : Char} (none_here : ∀ name behind, ¬Use (c :: rest) ('-' :: name) behind) :
    customNames (c :: rest) = customNames rest := by
  rw [customNames]
  split
  · rfl
  next argument opened =>
    split
    · rfl
    next name named =>
      obtain ⟨letters, behind, rfl, -, use⟩ := use_of_custom opened named
      exact absurd use (none_here letters behind)

theorem customUses_other {c : Char} (none_here : ∀ name behind, ¬Use (c :: rest) ('-' :: name) behind) :
    customUses offset (c :: rest) = customUses (offset + 1) rest := by
  rw [customUses, usesFrom, List.filter_append]
  cases used : useAt? (c :: rest) with
  | none => rfl
  | some name =>
    obtain ⟨behind, use⟩ := useAt_iff.mp used
    rcases name_cases use with ⟨letters, rfl⟩ | ⟨letters, rfl⟩
    · exact absurd use (none_here letters behind)
    · rfl

/-- Where no use of a custom property begins, none is found. -/
theorem customUses_drop (count : Nat) (none_here : ∀ inner, inner < count → ∀ name behind, ¬Use (s.drop inner) ('-' :: name) behind) :
    customUses offset s = customUses (offset + count) (s.drop count) := by
  induction count generalizing offset s with
  | zero => rfl
  | succ count ih =>
    cases s with
    | nil => rfl
    | cons c more =>
      have later : ∀ inner, inner < count → ∀ name behind, ¬Use (more.drop inner) ('-' :: name) behind := by
        intro inner within
        exact none_here (inner + 1) (by omega)
      rw [customUses_other (none_here 0 (by omega)), ih later, List.drop_succ_cons, Nat.add_right_comm, Nat.add_assoc]

theorem Apart.drop (apart : Apart s) (count : Nat) : Apart (s.drop count) := by
  intro offset inner name other rest behind use use' before
  rw [List.drop_drop] at use use'
  have bound := apart _ _ _ _ _ _ use use' (by omega)
  rw [List.length_drop]
  omega

theorem customNames_uses (apart : Apart s) (offset : Nat) : customNames s = (customUses offset s).map (·.2) := by
  induction width : s.length using Nat.strongRecOn generalizing s offset with
  | ind width ih =>
    cases s with
    | nil => rw [customNames]; rfl
    | cons c more =>
      by_cases here : ∃ name rest, Use (c :: more) ('-' :: name) rest
      · obtain ⟨name, rest, use⟩ := here
        obtain ⟨front, whole, filled⟩ := use_front use
        have wide : 0 < front.length := List.length_pos_iff.mpr filled
        have sizes : (c :: more).length = front.length + rest.length := by rw [whole, List.length_append]
        have behind : (c :: more).drop front.length = rest := by rw [whole, List.drop_left]
        -- Nothing begins before the use ends, since uses are apart.
        have silent : ∀ inner, inner < front.length - 1 → ∀ name behind, ¬Use (more.drop inner) ('-' :: name) behind := by
          intro inner within other behind use'
          have bound := apart 0 (inner + 1) name other rest behind use use' (by omega)
          omega
        have resumed : more.drop (front.length - 1) = rest := by
          rw [← behind]
          obtain ⟨count, same⟩ : ∃ count, front.length = count + 1 := ⟨front.length - 1, by omega⟩
          rw [same]
          rfl
        have used : useAt? (c :: more) = some ('-' :: name) := useAt_iff.mpr ⟨rest, use⟩
        have first : customUses offset (c :: more) = (offset, '-' :: name) :: customUses (offset + 1) more := by
          rw [customUses, usesFrom, used]
          rfl
        rw [customNames_use use, first, customUses_drop _ silent, resumed, List.map_cons]
        congr 1
        exact ih rest.length (by omega) (behind ▸ apart.drop _) _ rfl
      · have none_here : ∀ name behind, ¬Use (c :: more) ('-' :: name) behind := fun name behind use => here ⟨name, behind, use⟩
        rw [customNames_other none_here, customUses_other none_here]
        exact ih more.length (by rw [← width]; exact Nat.lt_succ_self _) (apart.drop 1) _ rfl

/-- That uses are apart is told by their offsets and by how much of the value is left behind each. -/
theorem apart_iff {value : Text} : Apart value ↔ ∀ use ∈ customUses 0 value, ∀ later ∈ customUses 0 value, use.1 < later.1 →
    ∀ argument ∈ varArgument? (value.drop use.1), value.length + use.2.length ≤ later.1 + argument.length := by
  have custom : ∀ use : Nat × Text, use ∈ customUses 0 value ↔
      ∃ letters rest, use.2 = '-' :: letters ∧ Use (value.drop use.1) use.2 rest := by
    intro use
    rw [customUses, List.mem_filter, mem_usesFrom]
    constructor
    · rintro ⟨⟨inner, rest, place, used⟩, kind⟩
      rw [Nat.zero_add] at place
      rw [← place] at used
      rcases name_cases used with ⟨letters, own⟩ | ⟨letters, own⟩
      · exact ⟨letters, rest, own, used⟩
      · rw [own] at kind
        cases kind
    · rintro ⟨letters, rest, own, used⟩
      exact ⟨⟨use.1, rest, (Nat.zero_add _).symm, used⟩, by rw [own]; rfl⟩
  constructor
  · rintro apart ⟨offset, name⟩ member ⟨inner, other⟩ member' before argument opened
    obtain ⟨letters, rest, rfl, use⟩ := (custom _).mp member
    obtain ⟨letters', behind, rfl, use'⟩ := (custom _).mp member'
    have bound := apart offset inner letters letters' rest behind use use' before
    obtain rfl : '-' :: (letters ++ rest) = argument := Option.some.inj ((custom_of_use use).1.symm.trans opened)
    simp only [List.length_cons, List.length_append]
    omega
  · intro bounds offset inner name other rest behind use use' before
    have bound := bounds (offset, '-' :: name) ((custom _).mpr ⟨name, rest, rfl, use⟩) (inner, '-' :: other)
      ((custom _).mpr ⟨other, behind, rfl, use'⟩) before _ (custom_of_use use).1
    simp only [List.length_cons, List.length_append] at bound
    omega

instance (value : Text) : Decidable (Apart value) := decidable_of_iff _ apart_iff.symm

end Values


section Listing

variable {values : List Text} {place : Place} {name : Text}

/-- The order in which uses are listed: by values, then custom properties first, then by offset. -/
def Listed (use later : Place × Text) : Prop :=
  use.1.1 < later.1.1 ∨ use.1.1 = later.1.1 ∧
    (isCustom use.2 = true ∧ isCustom later.2 = false ∨ isCustom use.2 = isCustom later.2 ∧ use.1.2 < later.1.2)

/-- The uses in the order in which they are listed. -/
def entries (values : List Text) : List (Place × Text) :=
  values.zipIdx.flatMap fun item =>
    (customUses 0 item.1 ++ dollarUses 0 item.1).map fun use => ((item.2, use.1), use.2)

theorem mem_entries : (place, name) ∈ entries values ↔ UsedAt values place name := by
  simp only [entries, List.mem_flatMap, List.mem_map, List.mem_append, customUses, dollarUses, List.mem_filter,
    Bool.not_eq_true', mem_usesFrom]
  constructor
  · rintro ⟨⟨value, line⟩, listed, use, kind, same⟩
    obtain ⟨rfl, rfl⟩ := Prod.mk.inj same
    obtain ⟨inner, rest, offset, used⟩ := kind.elim And.left And.left
    refine ⟨value, rest, List.mk_mem_zipIdx_iff_getElem?.mp listed, ?_⟩
    rwa [offset, Nat.zero_add]
  · rintro ⟨value, rest, listed, used⟩
    refine ⟨(value, place.1), List.mk_mem_zipIdx_iff_getElem?.mpr listed, (place.2, name), ?_, rfl⟩
    have found : ∃ inner rest, place.2 = 0 + inner ∧ Use (value.drop inner) name rest :=
      ⟨place.2, rest, (Nat.zero_add _).symm, used⟩
    cases kind : isCustom name with
    | true => exact .inl ⟨found, rfl⟩
    | false => exact .inr ⟨found, rfl⟩

theorem entries_listed (values : List Text) : (entries values).Pairwise Listed := by
  rw [entries, List.pairwise_flatMap]
  constructor
  · intro item _
    rw [List.pairwise_map, List.pairwise_append]
    refine ⟨?_, ?_, ?_⟩
    · apply ((usesFrom_sorted 0 item.1).filter _).imp_of_mem
      intro use later member member' before
      have kinds : isCustom use.2 = isCustom later.2 :=
        (List.mem_filter.mp member).2.trans (List.mem_filter.mp member').2.symm
      exact .inr ⟨rfl, .inr ⟨kinds, before⟩⟩
    · apply ((usesFrom_sorted 0 item.1).filter _).imp_of_mem
      intro use later member member' before
      have kinds : (!isCustom use.2) = !isCustom later.2 :=
        (List.mem_filter.mp member).2.trans (List.mem_filter.mp member').2.symm
      exact .inr ⟨rfl, .inr ⟨Bool.not_inj kinds, before⟩⟩
    · intro use member later member'
      have kind : isCustom later.2 = false := by simpa using (List.mem_filter.mp member').2
      exact .inr ⟨rfl, .inl ⟨(List.mem_filter.mp member).2, kind⟩⟩
  · have lines : values.zipIdx.Pairwise fun item later => item.2 < later.2 := by
      rw [← List.pairwise_map, List.zipIdx_map_snd]
      exact List.pairwise_lt_range'
    apply lines.imp
    intro item later before use member use' member'
    obtain ⟨own, -, rfl⟩ := List.mem_map.mp member
    obtain ⟨own', -, rfl⟩ := List.mem_map.mp member'
    exact .inl before

theorem names_entries (apart : ∀ value ∈ values, Apart value) :
    (entries values).map (·.2) = values.flatMap fun value => customNames value ++ dollarNames value := by
  rw [entries, List.map_flatMap]
  have each : ∀ item ∈ values.zipIdx, ((customUses 0 item.1 ++ dollarUses 0 item.1).map fun use =>
      ((item.2, use.1), use.2)).map (·.2) = customNames item.1 ++ dollarNames item.1 := by
    intro item member
    have own : item.1 ∈ values := by
      have listed := List.mem_map_of_mem (f := Prod.fst) member
      rwa [List.zipIdx_map_fst] at listed
    rw [customNames_uses (apart item.1 own) 0, dollarNames_uses 0, ← List.map_append, List.map_map]
    rfl
  rw [List.flatMap_congr each]
  conv_rhs => rw [← List.zipIdx_map_fst 0 values, List.flatMap_map]

/-- Repetitions are left out, so what is listed first is used in an entry ahead of all uses of what is listed later. -/
theorem distinct_listed {uses : List (Place × Text)} (listed : uses.Pairwise Listed) :
    (distinct (uses.map (·.2))).Pairwise fun name later =>
      ∃ use ∈ uses, use.2 = name ∧ ∀ other ∈ uses, other.2 = later → Listed use other := by
  induction uses using List.reverseRecOn with
  | nil => exact .nil
  | append_singleton uses last ih =>
    obtain ⟨front, -, before⟩ := List.pairwise_append.mp listed
    have onward : ∀ use ∈ uses, Listed use last := fun use member => before use member last (List.mem_singleton_self last)
    have kept : (distinct (uses.map (·.2))).Pairwise fun name later => ∃ use ∈ uses ++ [last], use.2 = name ∧
        ∀ other ∈ uses ++ [last], other.2 = later → Listed use other := by
      apply (ih front).imp
      rintro name later ⟨use, member, own, ahead⟩
      refine ⟨use, List.mem_append_left _ member, own, ?_⟩
      intro other member' same
      rcases List.mem_append.mp member' with early | late
      · exact ahead other early same
      · exact List.mem_singleton.mp late ▸ onward use member
    rw [List.map_append, List.map_singleton, distinct_append_singleton]
    split
    · exact kept
    next fresh =>
      rw [List.pairwise_append]
      refine ⟨kept, List.pairwise_singleton _ _, ?_⟩
      intro name early later member
      obtain rfl := List.mem_singleton.mp member
      obtain ⟨use, member, own⟩ := List.mem_map.mp (mem_distinct.mp early)
      refine ⟨use, List.mem_append_left _ member, own, ?_⟩
      intro other member' same
      rcases List.mem_append.mp member' with early' | late
      · exact absurd (List.mem_map.mpr ⟨other, early', same⟩) fresh
      · exact List.mem_singleton.mp late ▸ onward use member

end Listing

section Order

variable {values : List Text} {place other : Place} {name later sigil custom : Text} {line offset inner : Nat}

/-- A name that is used is used somewhere first. -/
theorem exists_first (used : UsedAt values place name) : ∃ first, FirstAt values first name := by
  have founded : WellFounded (Prod.Lex (· < ·) (· < ·) : Place → Place → Prop) := (Prod.lex Nat.lt_wfRel Nat.lt_wfRel).wf
  obtain ⟨first, used, least⟩ := founded.has_min (fun place => UsedAt values place name) ⟨place, used⟩
  refine ⟨first, used, ?_⟩
  intro other used' before
  exact least other used' (Prod.lex_def.mpr before)

theorem before_or_not (place other : Place) (first : ¬Before other place) : place = other ∨ Before place other := by
  obtain ⟨line, offset⟩ := place
  obtain ⟨line', offset'⟩ := other
  simp only [Before, Prod.mk.injEq] at first ⊢
  omega

/-- What is listed behind one use of a name is listed behind its first use. -/
theorem listed_first {use : Place × Text} (first : FirstAt values place name) (used : UsedAt values other name)
    (ahead : Listed (other, name) use) : Listed (place, name) use := by
  rcases before_or_not place other (first.first other used) with rfl | before
  · exact ahead
  · rcases ahead with onward | ⟨same, kinds⟩
    · exact .inl (before.elim (fun earlier => earlier.trans onward) fun level => level.1.trans_lt onward)
    · rcases before with earlier | ⟨level, sooner⟩
      · exact .inl (same ▸ earlier)
      · exact .inr ⟨level.trans same, kinds.imp_right fun alike => ⟨alike.1, sooner.trans alike.2⟩⟩

theorem not_listed_sigil (ahead : Listed (place, '$' :: sigil) (other, '-' :: custom)) : place.1 < other.1 := by
  rcases ahead with before | ⟨-, ⟨kind, -⟩ | ⟨kinds, -⟩⟩
  · exact before
  · cases kind
  · cases kinds

/-- Uses listed one behind the other that do not come in that order are those of a custom property, and of a name with
a dollar sign in front of it. -/
theorem before_of_listed (tidy : CustomFirst values) (first : FirstAt values place name) (first' : FirstAt values other later)
    (ahead : Listed (place, name) (other, later)) : Before place other := by
  rcases ahead with before | ⟨same, ⟨kind, kind'⟩ | ⟨-, before⟩⟩
  · exact .inl before
  · obtain ⟨line, inner⟩ := place
    obtain ⟨line', offset⟩ := other
    obtain rfl : line = line' := same
    obtain ⟨_, _, _, use⟩ := first.used
    obtain ⟨_, _, _, use'⟩ := first'.used
    rcases name_cases use with ⟨custom, rfl⟩ | ⟨sigil, rfl⟩
    · rcases name_cases use' with ⟨custom', rfl⟩ | ⟨sigil, rfl⟩
      · cases kind'
      · exact .inr ⟨rfl, tidy line offset inner sigil custom first' first⟩
    · cases kind
  · exact .inr ⟨same, before⟩

theorem inOrder_of_listed (tidy : CustomFirst values) {uses : List (Place × Text)}
    (all : ∀ place name, (place, name) ∈ uses ↔ UsedAt values place name)
    (listed : names.Pairwise fun name later => ∃ use ∈ uses, use.2 = name ∧ ∀ other ∈ uses, other.2 = later → Listed use other) :
    InOrder values names := by
  apply listed.imp
  rintro name later ⟨⟨place, own⟩, member, rfl, ahead⟩
  have used : UsedAt values place own := (all place own).mp member
  obtain ⟨first, early⟩ := exists_first used
  refine ⟨first, early.used, ?_⟩
  intro other used'
  obtain ⟨first', early'⟩ := exists_first used'
  have behind : Listed (place, own) (first', later) := ahead (first', later) ((all first' later).mpr early'.used) rfl
  have before := before_of_listed tidy early early' (listed_first early used behind)
  rcases before_or_not first' other (early'.first other used') with rfl | onward
  · exact before
  · unfold Before at *
    omega

theorem customFirst_of_inOrder {uses : List (Place × Text)} (all : ∀ place name, (place, name) ∈ uses ↔ UsedAt values place name)
    (listed : names.Pairwise fun name later => ∃ use ∈ uses, use.2 = name ∧ ∀ other ∈ uses, other.2 = later → Listed use other)
    (members : ∀ name, name ∈ names ↔ ∃ place, UsedAt values place name) (ordered : InOrder values names) :
    CustomFirst values := by
  intro line offset inner sigil custom first first'
  obtain ⟨i, here, own⟩ := List.mem_iff_getElem.mp ((members _).mpr ⟨_, first.used⟩)
  obtain ⟨j, there, own'⟩ := List.mem_iff_getElem.mp ((members _).mpr ⟨_, first'.used⟩)
  rcases Nat.lt_trichotomy i j with before | rfl | before
  · -- A name with a dollar sign is listed behind the custom properties of its value.
    obtain ⟨⟨place, name⟩, member, same, ahead⟩ := List.pairwise_iff_getElem.mp listed i j here there before
    obtain rfl : name = '$' :: sigil := same.trans own
    have behind := ahead ((line, inner), '-' :: custom) ((all _ _).mpr first'.used) own'.symm
    have front : place.1 < line := not_listed_sigil behind
    exact absurd (.inl front) (first.first place ((all _ _).mp member))
  · exact absurd (own.symm.trans own') (by simp)
  · obtain ⟨place, used, ahead⟩ := List.pairwise_iff_getElem.mp ordered j i there here before
    rw [own'] at used
    rw [own] at ahead
    have front := ahead (line, offset) first.used
    have late := first'.first place used
    simp only [Before] at front late
    omega

end Order

theorem usages_eq (found : List Match) : variableUsages found =
    distinct ((valuesOf found).flatMap fun value => customNames value ++ dollarNames value) := by
  have body : ∀ text : Text, namesUsed text = ((splitTopLevel ';' text).filterMap fun declaration => (cut ':' declaration).2).flatMap
      fun value => customNames value ++ dollarNames value := by
    intro text
    rw [namesUsed]
    induction splitTopLevel ';' text with
    | nil => rfl
    | cons declaration rest ih =>
      rw [List.flatMap_cons, ih, List.filterMap_cons, namesUsedIn]
      split
      next none_there => rw [none_there]; rfl
      next value there => rw [there]; rfl
  rw [variableUsages, valuesOf, List.flatMap_assoc]
  simp only [body]

/-- Where no use of a custom property begins inside of another, every variable is listed exactly once, in the order of
first use exactly if no name with a dollar sign is new in front of a custom property that is new in the same value. -/
theorem usages_in_order_iff (found : List Match) (apart : ∀ value ∈ valuesOf found, Apart value) :
    (variableUsages found).Nodup ∧
      (∀ name, name ∈ variableUsages found ↔ ∃ place, UsedAt (valuesOf found) place name) ∧
      (InOrder (valuesOf found) (variableUsages found) ↔ CustomFirst (valuesOf found)) := by
  have all : ∀ place name, (place, name) ∈ entries (valuesOf found) ↔ UsedAt (valuesOf found) place name :=
    fun _ _ => mem_entries
  have listed := distinct_listed (entries_listed (valuesOf found))
  rw [names_entries apart, ← usages_eq] at listed
  have members : ∀ name, name ∈ variableUsages found ↔ ∃ place, UsedAt (valuesOf found) place name := by
    intro name
    rw [usages_eq, mem_distinct, ← names_entries apart, List.mem_map]
    constructor
    · rintro ⟨⟨place, own⟩, member, rfl⟩
      exact ⟨place, (all place own).mp member⟩
    · rintro ⟨place, used⟩
      exact ⟨(place, name), (all place name).mpr used, rfl⟩
  refine ⟨?_, members, ?_, ?_⟩
  · rw [usages_eq]
    exact nodup_distinct _
  · exact customFirst_of_inOrder all listed members
  · intro tidy
    exact inOrder_of_listed tidy all listed

/-- A match of a rule with a body. -/
def matchOf (body : String) : Match := { selector := ".menu".toList, reasons := [], rule := { selector := ".menu".toList, body := body.toList } }

/-- Fallbacks, names that are used again, and a name with a dollar sign behind custom properties. -/
def menuMatches : List Match :=
  [matchOf "--pad: 1px; gap: calc(var( --pad, var(--gap)) * $step)", matchOf "color: $ink; width: var(--gap)var(--wide-var)"]

theorem menu_usages_in_order : (∀ value ∈ valuesOf menuMatches, Apart value) ∧
    variableUsages menuMatches = ["--pad".toList, "--gap".toList, "$step".toList, "$ink".toList, "--wide-var".toList] ∧
    (variableUsages menuMatches).Nodup ∧
    (∀ name, name ∈ variableUsages menuMatches ↔ ∃ place, UsedAt (valuesOf menuMatches) place name) ∧
    (InOrder (valuesOf menuMatches) (variableUsages menuMatches) ↔ CustomFirst (valuesOf menuMatches)) := by
  have apart : ∀ value ∈ valuesOf menuMatches, Apart value := by decide +kernel
  exact ⟨apart, by decide +kernel, usages_in_order_iff menuMatches apart⟩

/-- Of one value the custom property is listed in front of the name that is used before it. -/
theorem dollar_name_is_listed_late : variableUsages [matchOf "width: calc($gap + var(--pad))"] = ["--pad".toList, "$gap".toList] ∧
    ¬InOrder (valuesOf [matchOf "width: calc($gap + var(--pad))"]) ["--pad".toList, "$gap".toList] := by
  have uses : entries (valuesOf [matchOf "width: calc($gap + var(--pad))"]) =
      [((0, 13), "--pad".toList), ((0, 6), "$gap".toList)] := by decide +kernel
  refine ⟨by decide +kernel, ?_⟩
  intro ordered
  obtain ⟨place, used, ahead⟩ := (List.pairwise_cons.mp ordered).1 "$gap".toList (List.mem_singleton_self _)
  have early : UsedAt (valuesOf [matchOf "width: calc($gap + var(--pad))"]) (0, 6) "$gap".toList := by
    rw [← mem_entries, uses]
    decide
  rw [← mem_entries, uses] at used
  have front := ahead _ early
  obtain rfl : place = (0, 13) := by simpa using used
  exact absurd front (by unfold Before; decide)

end CascadeLens.Proofs.VariableOrder
