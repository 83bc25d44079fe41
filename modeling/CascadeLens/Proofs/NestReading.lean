import CascadeLens.Proofs.TextShape
import CascadeLens.Text.Bracket

/-! Reading a text with its brackets, quotes and escapes. A text that closes only brackets of its own
is read the same inside of other brackets, and a piece between two cuts is read as if it stood alone. -/

namespace CascadeLens.Proofs.NestReading
open Text TextShape

/-- What holds of every character of a text in the state in which it is read. -/
def Along (p : Nest → Char → Prop) (nest : Nest) : Text → Prop
  | [] => True
  | c :: rest => p nest c ∧ Along p (nest.step c) rest

instance decidableAlong (p : Nest → Char → Prop) [∀ nest c, Decidable (p nest c)] :
    (nest : Nest) → (s : Text) → Decidable (Along p nest s)
  | _, [] => .isTrue trivial
  | nest, c :: rest =>
    have := decidableAlong p (nest.step c) rest
    inferInstanceAs (Decidable (p nest c ∧ Along p (nest.step c) rest))

section Along

variable {p q : Nest → Char → Prop} {nest : Nest} {s t : Text}

theorem read_append (nest : Nest) (s t : Text) : nest.read (s ++ t) = (nest.read s).read t := List.foldl_append

theorem along_append : Along p nest (s ++ t) ↔ Along p nest s ∧ Along p (nest.read s) t := by
  induction s generalizing nest with
  | nil => exact ⟨fun later => ⟨trivial, later⟩, And.right⟩
  | cons c rest ih => exact (and_congr_right' ih).trans and_assoc.symm

theorem Along.imp (along : Along p nest s) (weaker : ∀ nest c, p nest c → q nest c) : Along q nest s := by
  induction s generalizing nest with
  | nil => trivial
  | cons c rest ih => exact ⟨weaker nest c along.1, ih along.2⟩

theorem Along.and (first : Along p nest s) (second : Along q nest s) :
    Along (fun nest c => p nest c ∧ q nest c) nest s := by
  induction s generalizing nest with
  | nil => trivial
  | cons c rest ih => exact ⟨⟨first.1, second.1⟩, ih first.2 second.2⟩

theorem along_all {p : Char → Prop} (all : ∀ c ∈ s, p c) (nest : Nest) : Along (fun _ c => p c) nest s := by
  induction s generalizing nest with
  | nil => trivial
  | cons c rest ih =>
    obtain ⟨own, others⟩ := List.forall_mem_cons.mp all
    exact ⟨own, ih others (nest.step c)⟩

end Along

/-- Outside quotes and escapes. -/
def Bare (nest : Nest) : Prop := nest.quote = none ∧ nest.escaped = false

instance (nest : Nest) : Decidable (Bare nest) := inferInstanceAs (Decidable (_ ∧ _))

/-- The state inside the given number of brackets. -/
def within (depth : Nat) : Nest := { depth }

theorem eq_within {nest : Nest} (bare : Bare nest) : nest = within nest.depth := by
  obtain ⟨depth, quote, escaped⟩ := nest
  obtain ⟨rfl, rfl⟩ := bare
  rfl

theorem outside_iff {nest : Nest} : nest.outside = true ↔ nest = {} := by
  obtain ⟨depth, quote, escaped⟩ := nest
  cases quote <;> cases escaped <;> simp [Nest.outside]

/-- Characters that leave every bare state as it is. -/
def ordinary (c : Char) : Bool := !(c == '\\' || isQuote c || isOpener c || isCloser c)

theorem step_ordinary {c : Char} (plain : ordinary c = true) (depth : Nat) : (within depth).step c = within depth := by
  simp only [ordinary, Bool.not_eq_true', Bool.or_eq_false_iff] at plain
  obtain ⟨⟨⟨escape, quote⟩, opener⟩, closer⟩ := plain
  simp [Nest.step, within, escape, quote, opener, closer]

theorem read_ordinary {s : Text} (plain : ∀ c ∈ s, ordinary c = true) (depth : Nat) :
    (within depth).read s = within depth := by
  induction s with
  | nil => rfl
  | cons c rest ih =>
    obtain ⟨own, others⟩ := List.forall_mem_cons.mp plain
    rw [Nest.read, List.foldl_cons, step_ordinary own]
    exact ih others

/-- Quotes are opened by quotes only. -/
def Quoting (nest : Nest) : Prop := ∀ quote, nest.quote = some quote → isQuote quote = true

theorem Quoting.step {nest : Nest} (quoting : Quoting nest) (c : Char) : Quoting (nest.step c) := by
  intro quote found
  unfold Nest.step at found
  grind [Quoting]

/-- Characters without a meaning of their own only end an escape, wherever they stand. -/
theorem Quoting.step_ordinary {nest : Nest} (quoting : Quoting nest) {c : Char} (plain : ordinary c = true) :
    nest.step c = { nest with escaped := false } := by
  obtain ⟨depth, quote, escaped⟩ := nest
  simp only [ordinary, Bool.not_eq_true', Bool.or_eq_false_iff] at plain
  cases escaped with
  | true => rfl
  | false =>
    cases quote with
    | none => simp [Nest.step, plain]
    | some quote =>
      have other : c ≠ quote := by
        rintro rfl
        exact absurd (quoting c rfl) (by simp [plain])
      simp [Nest.step, plain, other]

theorem Quoting.read_ordinary {nest : Nest} (quoting : Quoting nest) {s : Text} (filled : s ≠ [])
    (plain : ∀ c ∈ s, ordinary c = true) : nest.read s = { nest with escaped := false } := by
  induction s generalizing nest with
  | nil => exact absurd rfl filled
  | cons c rest ih =>
    obtain ⟨own, others⟩ := List.forall_mem_cons.mp plain
    rw [Nest.read, List.foldl_cons, quoting.step_ordinary own]
    cases rest with
    | nil => rfl
    | cons d more => exact ih quoting (List.cons_ne_nil d more) others

theorem ordinary_of_isBlank {c : Char} (white : isBlank c = true) : ordinary c = true := by
  have all : ∀ code ∈ blankCodes, ordinary (Char.ofNat code) = true := by decide
  have own := all c.toNat (blank_code white)
  rwa [Char.ofNat_toNat] at own

theorem blank_flat {c : Char} (white : isBlank c = true) : isOpener c = false ∧ isCloser c = false := by
  have plain := ordinary_of_isBlank white
  simp only [ordinary, Bool.not_eq_true', Bool.or_eq_false_iff] at plain
  exact ⟨plain.1.2, plain.2⟩

theorem ordinary_of_isNameChar {c : Char} (letter : isNameChar c = true) : ordinary c = true := by
  have silent : ∀ mark ∈ ['\\', '"', '\'', '(', '[', ')', ']'], isNameChar mark = false := by decide
  have apart : ∀ mark ∈ ['\\', '"', '\'', '(', '[', ')', ']'], c ≠ mark := by
    rintro mark member rfl
    exact absurd (letter.symm.trans (silent c member)) (by decide)
  simp only [List.forall_mem_cons, List.not_mem_nil, false_implies, implies_true, and_true] at apart
  simp [ordinary, isQuote, isOpener, isCloser, apart]

section Brackets

/-- Inside more brackets than before. -/
def deeper (depth : Nat) (nest : Nest) : Nest := { nest with depth := nest.depth + depth }

/-- A closing bracket has one to close. -/
def Sheltered (nest : Nest) (c : Char) : Prop := isCloser c = true → Bare nest → nest.depth ≠ 0

instance (nest : Nest) (c : Char) : Decidable (Sheltered nest c) := inferInstanceAs (Decidable (_ → _ → _))

theorem step_deeper {nest : Nest} {c : Char} (sheltered : Sheltered nest c) (depth : Nat) :
    (deeper depth nest).step c = deeper depth (nest.step c) := by
  obtain ⟨inner, quote, escaped⟩ := nest
  cases escaped with
  | true => rfl
  | false =>
    by_cases escape : c = '\\'
    · subst escape
      rfl
    cases quote with
    | some quote =>
      by_cases same : c = quote
      · subst same
        simp [Nest.step, deeper, escape]
      · simp [Nest.step, deeper, escape, same]
    | none =>
      have inside : isCloser c = true → inner ≠ 0 := fun closes => sheltered closes ⟨rfl, rfl⟩
      simp only [Nest.step, deeper]
      grind

theorem read_deeper {nest : Nest} {s : Text} (sheltered : Along Sheltered nest s) (depth : Nat) :
    (deeper depth nest).read s = deeper depth (nest.read s) := by
  induction s generalizing nest with
  | nil => rfl
  | cons c rest ih =>
    rw [Nest.read, List.foldl_cons, step_deeper sheltered.1]
    exact ih sheltered.2

/-- What holds along a text tells what holds along it inside of other brackets. -/
theorem Along.deeper {p q : Nest → Char → Prop} {nest : Nest} {s : Text} (sheltered : Along Sheltered nest s)
    (along : Along p nest s) (depth : Nat) (below : ∀ nest c, p nest c → q (deeper depth nest) c) :
    Along q (deeper depth nest) s := by
  induction s generalizing nest with
  | nil => trivial
  | cons c rest ih =>
    refine ⟨below nest c along.1, ?_⟩
    rw [step_deeper sheltered.1]
    exact ih sheltered.2 along.2

end Brackets

section Cuts

variable {mark : Char → Bool}

def Uncut (mark : Char → Bool) (nest : Nest) (c : Char) : Prop := nest.cutsAt mark c = false

instance (mark : Char → Bool) (nest : Nest) (c : Char) : Decidable (Uncut mark nest c) :=
  inferInstanceAs (Decidable (_ = _))

theorem uncut_deeper {nest : Nest} {c : Char} (uncut : Uncut mark nest c) (depth : Nat) :
    Uncut mark (deeper depth nest) c := by
  cases depth with
  | zero => exact uncut
  | succ depth => simp [Uncut, Nest.cutsAt, Nest.outside, deeper]

theorem uncut_within {c : Char} (depth : Nat) (other : mark c = false) : Uncut mark (within depth) c := by
  simp [Uncut, Nest.cutsAt, other]

theorem outside_of_cuts {nest : Nest} {c : Char} (cuts : nest.cutsAt mark c = true) : nest = {} := by
  simp only [Nest.cutsAt, Bool.and_eq_true] at cuts
  exact outside_iff.mp cuts.1.1

theorem uncut_unmarked {s : Text} (other : ∀ c ∈ s, mark c = false) (nest : Nest) : Along (Uncut mark) nest s :=
  (along_all other nest).imp fun _ _ own => by simp [Uncut, Nest.cutsAt, own]

theorem topLevelFrom_append {nest : Nest} {s : Text} (uncut : Along (Uncut mark) nest s) (begun t : Text) :
    topLevelFrom mark nest begun (s ++ t) = topLevelFrom mark (nest.read s) (s.reverse ++ begun) t := by
  induction s generalizing nest begun with
  | nil => rfl
  | cons c rest ih =>
    have own : nest.cutsAt mark c = false := uncut.1
    rw [List.cons_append, topLevelFrom, own, if_neg Bool.false_ne_true, ih uncut.2, List.reverse_cons, List.append_assoc]
    rfl

theorem topLevelFrom_uncut {nest : Nest} {s : Text} (uncut : Along (Uncut mark) nest s) (begun : Text) :
    topLevelFrom mark nest begun s = [begun.reverse ++ s] := by
  have read := topLevelFrom_append uncut begun []
  rw [List.append_nil] at read
  rw [read, topLevelFrom, List.reverse_append, List.reverse_reverse]

theorem topLevelFrom_cut {c : Char} (cuts : Nest.cutsAt {} mark c = true) (begun t : Text) :
    topLevelFrom mark {} begun (c :: t) = begun.reverse :: topLevelFrom mark {} [] t := by
  rw [topLevelFrom, cuts, if_pos rfl]

/-- A cut leaves nothing open, so every piece is read from the start. -/
theorem piece_uncut {nest : Nest} {begun s piece : Text} (started : Nest.read {} begun.reverse = nest)
    (kept : Along (Uncut mark) {} begun.reverse) (member : piece ∈ topLevelFrom mark nest begun s) :
    Along (Uncut mark) {} piece := by
  induction s generalizing nest begun with
  | nil =>
    rw [topLevelFrom, List.mem_singleton] at member
    exact member ▸ kept
  | cons c rest ih =>
    unfold topLevelFrom at member
    split at member
    next cuts =>
      have outside : nest = {} := outside_of_cuts cuts
      rcases List.mem_cons.mp member with rfl | later
      · exact kept
      · exact @ih nest [] outside.symm trivial later
    next stays =>
      apply ih ?_ ?_ member
      · rw [List.reverse_cons, read_append, started]
        rfl
      · rw [List.reverse_cons]
        refine along_append.mpr ⟨kept, ?_, trivial⟩
        rw [started]
        simpa [Uncut] using stays

theorem mem_piece {nest : Nest} {begun s piece : Text} {c : Char} (member : piece ∈ topLevelFrom mark nest begun s)
    (inside : c ∈ piece) : c ∈ begun ∨ c ∈ s := by
  induction s generalizing nest begun with
  | nil =>
    rw [topLevelFrom, List.mem_singleton] at member
    exact Or.inl (List.mem_reverse.mp (member ▸ inside))
  | cons d rest ih =>
    rw [topLevelFrom] at member
    split at member
    · rcases List.mem_cons.mp member with rfl | later
      · exact Or.inl (List.mem_reverse.mp inside)
      · exact Or.inr (List.mem_cons_of_mem d ((ih later).resolve_left List.not_mem_nil))
    · rcases ih member with early | late
      · rcases List.mem_cons.mp early with rfl | early
        · exact Or.inr List.mem_cons_self
        · exact Or.inl early
      · exact Or.inr (List.mem_cons_of_mem d late)

/-- Cutting and trimming bring in no characters. -/
theorem mem_branch {s piece : Text} {c : Char} (member : piece ∈ splitTopLevelBy mark s) (inside : c ∈ piece) : c ∈ s := by
  obtain ⟨raw, listed, rfl⟩ := List.mem_map.mp (List.mem_filter.mp member).1
  exact (mem_piece listed (mem_trim inside)).resolve_left List.not_mem_nil

/-- Blanks in front of a text are read without a trace. -/
theorem along_behind_blanks {p : Nest → Char → Prop} {before s : Text} (white : ∀ c ∈ before, isBlank c = true)
    (along : Along p {} (before ++ s)) : Along p {} s := by
  have read := read_ordinary (fun c member => ordinary_of_isBlank (white c member)) 0
  have later := (along_append.mp along).2
  rwa [show Nest.read {} before = {} from read] at later

theorem along_trim {p : Nest → Char → Prop} {s : Text} (along : Along p {} s) : Along p {} (trim s) := by
  obtain ⟨before, after, whole, white, _⟩ := trim_spec s
  rw [whole] at along
  exact (along_append.mp (along_behind_blanks white along)).1

/-- A piece that cannot be split any further. -/
structure Whole (mark : Char → Bool) (s : Text) : Prop where
  filled : s ≠ []
  trimmed : Trimmed s
  uncut : Along (Uncut mark) {} s

theorem whole_of_member {s piece : Text} (member : piece ∈ splitTopLevelBy mark s) : Whole mark piece := by
  obtain ⟨listed, filled⟩ := List.mem_filter.mp member
  obtain ⟨raw, inside, rfl⟩ := List.mem_map.mp listed
  have uncut := @piece_uncut mark {} [] s raw rfl trivial inside
  exact ⟨by simpa using filled, trim_trimmed raw, along_trim uncut⟩

theorem Whole.split {s : Text} (whole : Whole mark s) : splitTopLevelBy mark s = [s] := by
  rw [splitTopLevelBy, topLevelFrom_uncut whole.uncut]
  simp [trim_eq_self whole.trimmed, whole.filled]

end Cuts

end CascadeLens.Proofs.NestReading
