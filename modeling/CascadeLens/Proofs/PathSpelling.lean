import CascadeLens.Source.Load

/-! Paths and their spelling. A path from the root without `..` parts is told by its text, and where a path leads in a
tree of files is told by its parts once `..` has been followed. -/

namespace CascadeLens.Proofs.PathSpelling
open Text

section Pieces

variable {mark : Char} {s part : Text}

theorem pieces_splitOn (mark : Char) (s : Text) : pieces mark s = s.splitOn mark := by
  induction s with
  | nil => rfl
  | cons c rest ih =>
    rw [pieces, ih, List.splitOn_cons_eq_if_modifyHead]
    split
    · rfl
    · cases more : rest.splitOn mark with
      | nil => exact absurd more (List.splitOn_ne_nil mark rest)
      | cons => rfl

theorem not_mem_piece (piece : part ∈ s.splitOn mark) : mark ∉ part := by
  induction s generalizing part with
  | nil =>
    obtain rfl := List.mem_singleton.mp piece
    exact List.not_mem_nil
  | cons c rest ih =>
    rw [List.splitOn_cons_eq_if_modifyHead] at piece
    split at piece
    · rcases List.mem_cons.mp piece with rfl | later
      · exact List.not_mem_nil
      · exact ih later
    next other =>
      cases more : rest.splitOn mark with
      | nil => exact absurd more (List.splitOn_ne_nil mark rest)
      | cons first others =>
        rw [more] at ih piece
        rcases List.mem_cons.mp piece with rfl | later
        · have apart : mark ≠ c := fun same => other (beq_iff_eq.mpr same.symm)
          exact List.not_mem_cons_of_ne_of_not_mem apart (ih List.mem_cons_self)
        · exact ih (List.mem_cons_of_mem first later)

end Pieces

/-- What paths are made of. -/
structure Proper (part : Text) : Prop where
  filled : part ≠ []
  whole : '/' ∉ part
  moves : part ≠ ['.']

/-- The part that leads upwards. -/
def up : Text := ['.', '.']

/-- From the root, and without `..` parts. -/
structure Settled (path : Path) : Prop where
  root : path.root = ['/']
  proper : ∀ part ∈ path.parts, Proper part
  straight : up ∉ path.parts

section Texts

variable {path : Path} {s : Text} {parts : List Text}

theorem parse_proper (s : Text) : ∀ part ∈ (Path.parse s).parts, Proper part := by
  intro part member
  obtain ⟨piece, kept⟩ := List.mem_filter.mp member
  rw [pieces_splitOn] at piece
  simp only [Bool.and_eq_true, Bool.not_eq_true', List.isEmpty_eq_false_iff, bne_iff_ne, ne_eq] at kept
  exact ⟨kept.1, not_mem_piece piece, kept.2⟩

theorem rootOf_cases (s : Text) : Path.rootOf s = [] ∨ Path.rootOf s = ['/'] ∨ Path.rootOf s = ['/', '/'] := by
  unfold Path.rootOf
  split <;> simp

/-- Parts joined by slashes are told apart again. -/
theorem pieces_joined (proper : ∀ part ∈ parts, Proper part) :
    (pieces '/' (['/'].intercalate parts)).filter (fun part => !part.isEmpty && part != ['.']) = parts := by
  cases parts with
  | nil => rfl
  | cons first others =>
    have whole : ∀ part ∈ first :: others, '/' ∉ part := fun part member => (proper part member).whole
    rw [pieces_splitOn, List.splitOn_intercalate '/' whole (List.cons_ne_nil first others), List.filter_eq_self]
    intro part member
    simp [(proper part member).filled, (proper part member).moves]

theorem joined_head (proper : ∀ part ∈ parts, Proper part) : (['/'].intercalate parts).head? ≠ some '/' := by
  cases parts with
  | nil => nofun
  | cons first others =>
    obtain ⟨filled, whole, -⟩ := proper first List.mem_cons_self
    cases first with
    | nil => exact absurd rfl filled
    | cons c rest =>
      have apart : c ≠ '/' := fun same => whole (same ▸ List.mem_cons_self)
      cases others <;> simpa [List.intercalate] using apart

theorem settled_text (settled : Settled path) : path.text = '/' :: ['/'].intercalate path.parts := by
  rw [Path.text, settled.root]
  rfl

/-- The text of a settled path is read back as the path. -/
theorem path_of_text (settled : Settled path) : Path.parse path.text = path := by
  have head := joined_head settled.proper
  have parts : (Path.parse path.text).parts = path.parts := by
    rw [settled_text settled]
    exact pieces_joined settled.proper
  have root : (Path.parse path.text).root = path.root := by
    rw [settled.root, settled_text settled]
    show Path.rootOf _ = ['/']
    unfold Path.rootOf
    split <;> simp_all
  calc
    Path.parse path.text = ⟨(Path.parse path.text).root, (Path.parse path.text).parts⟩ := rfl
    _ = path := by rw [root, parts]

/-- A text of proper parts is the text of the path that it spells. -/
theorem text_parse (proper : ∀ part ∈ pieces '/' s, part ≠ [] ∧ part ≠ ['.']) :
    (Path.parse s).text = s ∧ (Path.parse s).root = [] := by
  have kept : (Path.parse s).parts = s.splitOn '/' := by
    rw [Path.parse, pieces_splitOn, List.filter_eq_self]
    intro part member
    obtain ⟨filled, moves⟩ := proper part (pieces_splitOn '/' s ▸ member)
    simp [filled, moves]
  have joined : ['/'].intercalate (s.splitOn '/') = s := List.intercalate_splitOn '/'
  have root : (Path.parse s).root = [] := by
    have clean : ∀ part ∈ (Path.parse s).parts, Proper part := parse_proper s
    have head := joined_head clean
    rw [kept, joined] at head
    show Path.rootOf s = []
    unfold Path.rootOf
    split <;> simp_all
  have some' : (Path.parse s).parts.isEmpty = false := by
    rw [kept, List.isEmpty_eq_false_iff]
    exact List.splitOn_ne_nil '/' s
  refine ⟨?_, root⟩
  rw [Path.text, root, some', kept, joined]
  rfl

end Texts

/-- One step of a path, with the parts above the place behind it, the nearest first. -/
def climb (above : List Text) (part : Text) : List Text := if part == up then above.drop 1 else part :: above

section Places

variable {tree : FileTree} {path : Path} {here file parts above : List Text}

theorem normalize_eq (path : Path) : path.normalize = ⟨path.root.take 1, (path.parts.foldl climb []).reverse⟩ := rfl

theorem mem_climbed {part : Text} (member : part ∈ parts.foldl climb above) : part ∈ above ∨ (part ∈ parts ∧ part ≠ up) := by
  induction parts generalizing above with
  | nil => exact .inl member
  | cons next parts ih =>
    rcases ih member with early | ⟨later, own⟩
    · unfold climb at early
      split at early
      · exact .inl (List.mem_of_mem_drop early)
      next onward =>
        rcases List.mem_cons.mp early with rfl | early
        · exact .inr ⟨List.mem_cons_self, fun same => onward (beq_iff_eq.mpr same)⟩
        · exact .inl early
    · exact .inr ⟨List.mem_cons_of_mem next later, own⟩

/-- No `..` is left, and nothing new comes in. -/
theorem mem_normalize {part : Text} (member : part ∈ path.normalize.parts) : part ∈ path.parts ∧ part ≠ up := by
  rw [normalize_eq] at member
  exact (mem_climbed (List.mem_reverse.mp member)).resolve_left List.not_mem_nil

theorem climb_straight (straight : up ∉ parts) (above : List Text) : parts.foldl climb above = parts.reverse ++ above := by
  induction parts generalizing above with
  | nil => rfl
  | cons next parts ih =>
    rw [List.mem_cons, not_or] at straight
    have onward : climb above next = next :: above := if_neg fun same => straight.1 (beq_iff_eq.mp same).symm
    rw [List.foldl_cons, onward, ih straight.2, List.reverse_cons, List.append_assoc]
    rfl

theorem normalize_straight (root : path.root = ['/']) (straight : up ∉ path.parts) : path.normalize = path := by
  obtain ⟨_, parts⟩ := path
  obtain rfl : _ = ['/'] := root
  rw [normalize_eq, climb_straight straight, List.append_nil, List.reverse_reverse]
  rfl

/-- A walk that arrives follows each `..` upwards. -/
theorem walk_climbs (arrives : tree.walk here parts = .ok file) : file = (parts.foldl climb here.reverse).reverse := by
  induction parts generalizing here with
  | nil =>
    rw [List.foldl_nil, List.reverse_reverse]
    exact (Except.ok.inj arrives).symm
  | cons part parts ih =>
    rw [FileTree.walk] at arrives
    split at arrives
    · cases arrives
    · cases arrives
    · have step : (if part == up then here.dropLast else here ++ [part]).reverse = climb here.reverse part := by
        unfold climb
        split
        · rw [List.drop_one, List.tail_reverse]
        · exact List.reverse_append
      rw [ih arrives, List.foldl_cons, ← step]
      rfl

theorem walk_normal (arrives : tree.walk [] path.parts = .ok file) : file = path.normalize.parts :=
  walk_climbs arrives

end Places

end CascadeLens.Proofs.PathSpelling
