import CascadeLens.Proofs.BranchMatching
import CascadeLens.Proofs.DeclarationBodies

/-! Cutting at marks outside of brackets, quotes and escapes. Every cut finds the reader where it started, so a piece
reads the same by itself as in its place. A piece is therefore not cut again, and two texts with a mark between them are
cut into the pieces of both. -/

namespace CascadeLens.Proofs.TopLevelPieces
open Text TextShape NestReading DeclarationBodies BranchMatching

section Pieces

variable {mark : Char} {nest : Nest} {s piece : Text}

/-- A text that is a single piece: not blank, trimmed, and not cut any further. -/
structure SinglePiece (mark : Char) (s : Text) : Prop where
  solid : blank s = false
  trimmed : trim s = s
  whole : splitTopLevel mark s = [s]

/-- Texts that are cut out of one: with the marks put back they are the text again, and each that has a mark behind
it leaves nothing open. -/
structure CutFrom (mark : Char) (s : Text) (raws : List Text) : Prop where
  joined : [mark].intercalate raws = s
  closed : ∀ raw ∈ raws.dropLast, (Nest.read {} raw).outside = true

theorem blank_iff {s : Text} : blank s = true ↔ trim s = [] := by
  constructor
  · intro white
    have behind := trimLeft_behind_blanks (List.all_eq_true.mp white) []
    rw [List.append_nil] at behind
    rw [trim, behind]
    rfl
  · intro nothing
    obtain ⟨before, after, whole, front, back⟩ := trim_spec s
    rw [nothing, List.nil_append] at whole
    rw [blank, whole, List.all_append, List.all_eq_true.mpr front, List.all_eq_true.mpr back]
    rfl

theorem single_of_whole (whole : Whole (· == mark) s) : SinglePiece mark s := by
  have same : trim s = s := trim_eq_self whole.trimmed
  refine ⟨?_, same, whole.split⟩
  rw [← Bool.not_eq_true, blank_iff, same]
  exact whole.filled

/-- The invariant of the reader: what is begun has led from the start to where it stands. -/
theorem pieces_closed (begun : Text) (started : Nest.read {} begun.reverse = nest)
    (member : piece ∈ (topLevelFrom (· == mark) nest begun s).dropLast) : Nest.read {} piece = {} := by
  induction s generalizing nest begun with
  | nil => cases member
  | cons c rest ih =>
    rw [topLevelFrom] at member
    split at member
    next cuts =>
      obtain rfl := outside_of_cuts cuts
      rw [List.dropLast_cons_of_ne_nil topLevelFrom_filled] at member
      rcases List.mem_cons.mp member with rfl | later
      · exact started
      · exact ih [] rfl later
    next =>
      apply ih (c :: begun) ?_ member
      rw [List.reverse_cons, read_append, started]
      rfl

theorem cut_from (mark : Char) (s : Text) : CutFrom mark s (topLevelFrom (· == mark) {} [] s) where
  joined := joined_pieces
  closed _ member := outside_iff.mpr (pieces_closed [] rfl member)

end Pieces

/-- A mark without a meaning of its own cuts a text into pieces that are not cut again, and cuts any text that leaves
nothing open from what follows it. -/
theorem pieces_and_concatenation {mark : Char}
    (plain : mark ≠ '\\' ∧ isQuote mark = false ∧ isOpener mark = false ∧ isCloser mark = false) (s t : Text) :
    (∃ raws, CutFrom mark s raws ∧ splitTopLevel mark s = (raws.map trim).filter (!blank ·)) ∧
      (∀ piece ∈ splitTopLevel mark s, SinglePiece mark piece) ∧
      ((Nest.read {} s).outside = true →
        splitTopLevel mark (s ++ mark :: t) = splitTopLevel mark s ++ splitTopLevel mark t) := by
  refine ⟨⟨_, cut_from mark s, ?_⟩, ?_, ?_⟩
  · rw [splitTopLevel, splitTopLevelBy]
    apply List.filter_congr
    intro piece member
    obtain ⟨raw, -, rfl⟩ := List.mem_map.mp member
    have settled : trim (trim raw) = trim raw := trim_eq_self (trim_trimmed raw)
    have same : blank (trim raw) = (trim raw).isEmpty := by
      rw [Bool.eq_iff_iff, blank_iff, settled, List.isEmpty_iff]
    rw [same]
  · intro piece member
    exact single_of_whole (whole_of_member member)
  · intro outside
    obtain ⟨escape, quote, opener, closer⟩ := plain
    have cuts : Nest.cutsAt {} (· == mark) mark = true := by
      simp [Nest.cutsAt, Nest.outside, escape, quote, opener, closer]
    exact split_joined cuts (outside_iff.mp outside) t

/-- A bracket too many, an escaped blank that trimming cuts in two, and a quote that is never closed. -/
theorem menu_list_is_cut : (∃ raws, CutFrom ',' "), .a\\ ,[b,\"(\"]".toList raws ∧
      splitTopLevel ',' "), .a\\ ,[b,\"(\"]".toList = (raws.map trim).filter (!blank ·)) ∧
    (∀ piece ∈ [")".toList, ".a\\".toList, "[b,\"(\"]".toList], SinglePiece ',' piece) ∧
    splitTopLevel ',' ("), .a\\ ,[b,\"(\"]".toList ++ ',' :: " 'x, (y".toList) =
      [")".toList, ".a\\".toList, "[b,\"(\"]".toList] ++ splitTopLevel ',' " 'x, (y".toList := by
  have cut : splitTopLevel ',' "), .a\\ ,[b,\"(\"]".toList = [")".toList, ".a\\".toList, "[b,\"(\"]".toList] := by decide
  have law := @pieces_and_concatenation ',' (by decide) "), .a\\ ,[b,\"(\"]".toList " 'x, (y".toList
  refine ⟨law.1, cut ▸ law.2.1, ?_⟩
  rw [law.2.2 (by decide), cut]

end CascadeLens.Proofs.TopLevelPieces
