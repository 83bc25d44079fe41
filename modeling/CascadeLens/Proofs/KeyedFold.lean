import CascadeLens.Text.Find
import Mathlib.Data.List.Induction

/-! Folding a list into one entry for each key. An entry keeps the place of the first one of its
key, and a later one takes that place when it beats the entry there. The entries kept are then the
greatest of their keys in every order that agrees with the comparison. -/

namespace CascadeLens.Proofs.KeyedFold

section Keyed

variable {α κ : Type} [BEq κ] (key : α → κ) (beats : α → α → Bool)

def put (kept : List α) (next : α) : List α :=
  match kept with
  | [] => [next]
  | first :: rest =>
    if key first == key next then
      if beats first next then next :: rest else first :: rest
    else first :: put rest next

theorem member_of_put {kept : List α} {next item : α} (member : item ∈ put key beats kept next) :
    item ∈ kept ∨ item = next := by
  induction kept with
  | nil => exact Or.inr (by simpa [put] using member)
  | cons first rest ih =>
    unfold put at member
    split at member
    · split at member
      · rcases List.mem_cons.mp member with rfl | member
        · exact Or.inr rfl
        · exact Or.inl (List.mem_cons_of_mem _ member)
      · exact Or.inl member
    · rcases List.mem_cons.mp member with rfl | member
      · exact Or.inl List.mem_cons_self
      · exact (ih member).imp_left (List.mem_cons_of_mem _)

theorem member_of_fold {items kept : List α} {item : α}
    (member : item ∈ items.foldl (put key beats) kept) : item ∈ kept ∨ item ∈ items := by
  induction items generalizing kept with
  | nil => exact Or.inl member
  | cons next rest ih =>
    rcases ih member with early | late
    · rcases member_of_put key beats early with old | rfl
      · exact Or.inl old
      · exact Or.inr List.mem_cons_self
    · exact Or.inr (List.mem_cons_of_mem _ late)

variable [LawfulBEq κ]

theorem keys_put (kept : List α) (next : α) :
    (put key beats kept next).map key =
      if key next ∈ kept.map key then kept.map key else kept.map key ++ [key next] := by
  induction kept with
  | nil => simp [put]
  | cons first rest ih =>
    unfold put
    by_cases same : key first = key next
    · rw [if_pos (beq_iff_eq.mpr same)]
      split <;> simp [same]
    · have other : key next ≠ key first := fun equal => same equal.symm
      rw [if_neg (by simpa using same)]
      simp only [List.map_cons, ih, List.mem_cons, other, false_or]
      split <;> rfl

/-- An entry survives unless the next one beats it, and then the next one is kept. -/
theorem put_keeps {kept : List α} {item : α} (next : α) (member : item ∈ kept) :
    item ∈ put key beats kept next ∨
      key item = key next ∧ beats item next ∧ next ∈ put key beats kept next := by
  induction kept with
  | nil => cases member
  | cons first rest ih =>
    unfold put
    split
    next same =>
      split
      next beaten =>
        rcases List.mem_cons.mp member with rfl | member
        · exact Or.inr ⟨beq_iff_eq.mp same, beaten, List.mem_cons_self⟩
        · exact Or.inl (List.mem_cons_of_mem _ member)
      next => exact Or.inl member
    next =>
      rcases List.mem_cons.mp member with rfl | member
      · exact Or.inl List.mem_cons_self
      · rcases ih member with stays | ⟨same, beaten, taken⟩
        · exact Or.inl (List.mem_cons_of_mem _ stays)
        · exact Or.inr ⟨same, beaten, List.mem_cons_of_mem _ taken⟩

private theorem put_same {first next : α} (rest : List α) (same : key first = key next) :
    put key beats (first :: rest) next = (if beats first next then next else first) :: rest := by
  rw [put, if_pos (beq_iff_eq.mpr same)]
  split <;> rfl

private theorem put_apart {first next : α} (rest : List α) (apart : key first ≠ key next) :
    put key beats (first :: rest) next = first :: put key beats rest next := by
  rw [put, if_neg fun same => apart (beq_iff_eq.mp same)]

/-- Entries may be chosen by their keys before they are folded. -/
theorem filter_put (chosen : κ → Bool) (kept : List α) (next : α) :
    (put key beats kept next).filter (fun item => chosen (key item)) =
      if chosen (key next) then put key beats (kept.filter fun item => chosen (key item)) next
      else kept.filter fun item => chosen (key item) := by
  induction kept with
  | nil => cases taken : chosen (key next) <;> simp [put, taken]
  | cons first rest ih =>
    by_cases same : key first = key next
    · rw [put_same key beats rest same]
      cases taken : chosen (key next) <;> cases beaten : beats first next <;> simp [same, taken, beaten, put_same]
    · rw [put_apart key beats rest same]
      cases taken : chosen (key next) <;> cases first_taken : chosen (key first) <;>
        simp [taken, first_taken, ih, put_apart key beats _ same]

theorem filter_fold (chosen : κ → Bool) (items : List α) :
    (items.foldl (put key beats) []).filter (fun item => chosen (key item)) =
      (items.filter fun item => chosen (key item)).foldl (put key beats) [] := by
  induction items using List.reverseRecOn with
  | nil => rfl
  | append_singleton items next ih =>
    rw [List.foldl_append, List.foldl_cons, List.foldl_nil, filter_put, ih, List.filter_append]
    cases apart : chosen (key next) <;> simp [apart]

/-- What entries of one key come down to. -/
def leading (items : List α) : Option α :=
  items.foldl (fun top next => some (top.elim next fun top => if beats top next then next else top)) none

omit [BEq κ] [LawfulBEq κ] in
theorem leading_snoc (front : List α) (next : α) : leading beats (front ++ [next]) =
    some ((leading beats front).elim next fun top => if beats top next then next else top) :=
  List.foldl_append

private theorem fold_single {items : List α} {own : κ} (same : ∀ item ∈ items, key item = own) :
    items.foldl (put key beats) [] = (leading beats items).toList := by
  induction items using List.reverseRecOn with
  | nil => rfl
  | append_singleton front next ih =>
    have among : ∀ item ∈ front, key item = own := fun item member => same item (List.mem_append_left _ member)
    have last : key next = own := same next (List.mem_append_right _ (List.mem_singleton_self next))
    have folded := ih among
    rw [List.foldl_append, List.foldl_cons, List.foldl_nil, leading_snoc, folded]
    cases led : leading beats front with
    | none => rfl
    | some top =>
      have kept : top ∈ front.foldl (put key beats) [] := by rw [folded, led]; exact List.mem_singleton_self top
      have first : key top = own := among top ((member_of_fold key beats kept).resolve_left (by simp))
      exact put_same key beats [] (first.trans last.symm)

/-- The entry of a key is what the entries of that key come down to. -/
theorem filter_fold_key (items : List α) (own : κ) :
    (items.foldl (put key beats) []).filter (fun item => key item == own) =
      (leading beats (items.filter fun item => key item == own)).toList := by
  rw [filter_fold key beats (· == own)]
  exact fold_single key beats fun item member => beq_iff_eq.mp (List.mem_filter.mp member).2

/-- The next entry is kept unless it does not beat the entry of its key. -/
theorem put_answers (kept : List α) (next : α) :
    ∃ item ∈ put key beats kept next, key item = key next ∧
      (item = next ∨ item ∈ kept ∧ beats item next = false) := by
  induction kept with
  | nil => exact ⟨next, by simp [put], rfl, Or.inl rfl⟩
  | cons first rest ih =>
    unfold put
    split
    next same =>
      split
      next => exact ⟨next, List.mem_cons_self, rfl, Or.inl rfl⟩
      next holds =>
        exact ⟨first, List.mem_cons_self, beq_iff_eq.mp same,
          Or.inr ⟨List.mem_cons_self, by simpa using holds⟩⟩
    next =>
      obtain ⟨item, member, same, origin⟩ := ih
      refine ⟨item, List.mem_cons_of_mem _ member, same, ?_⟩
      exact origin.imp_right fun ⟨old, holds⟩ => ⟨List.mem_cons_of_mem _ old, holds⟩

/-- The comparison of an entry with a later one agrees with an order. -/
def Agrees (below : α → α → Prop) (item next : α) : Prop :=
  if beats item next then below item next else below next item

private theorem fold_dominates_from {below : α → α → Prop} (refl : ∀ item, below item item)
    (trans : ∀ {a b c}, below a b → below b c → below a c) {items kept : List α}
    (apart : ∀ item ∈ kept, ∀ next ∈ items, Agrees beats below item next)
    (ordered : items.Pairwise (Agrees beats below)) {item : α} (member : item ∈ kept ∨ item ∈ items) :
    ∃ top ∈ items.foldl (put key beats) kept, key top = key item ∧ below item top := by
  induction items generalizing kept item with
  | nil => exact ⟨item, by simpa using member, rfl, refl item⟩
  | cons next rest ih =>
    have later := List.pairwise_cons.mp ordered
    have apart' : ∀ old ∈ put key beats kept next, ∀ other ∈ rest, Agrees beats below old other := by
      intro old present other inside
      rcases member_of_put key beats present with before | rfl
      · exact apart old before other (List.mem_cons_of_mem _ inside)
      · exact later.1 other inside
    have follow : ∀ middle ∈ put key beats kept next, key middle = key item → below item middle →
        ∃ top ∈ rest.foldl (put key beats) (put key beats kept next), key top = key item ∧ below item top := by
      intro middle present same under
      obtain ⟨top, found, equal, above⟩ := ih apart' later.2 (Or.inl present)
      exact ⟨top, found, equal.trans same, trans under above⟩
    rcases member with old | fresh
    · rcases put_keeps key beats next old with stays | ⟨same, beaten, taken⟩
      · exact follow item stays rfl (refl item)
      · have agrees := apart item old next List.mem_cons_self
        rw [Agrees, if_pos beaten] at agrees
        exact follow next taken same.symm agrees
    · rcases List.mem_cons.mp fresh with rfl | inside
      · obtain ⟨middle, present, same, rfl | ⟨old, holds⟩⟩ := put_answers key beats kept item
        · exact follow middle present same (refl middle)
        · have agrees := apart middle old item List.mem_cons_self
          rw [Agrees, if_neg (by simp [holds])] at agrees
          exact follow middle present same agrees
      · exact ih apart' later.2 (Or.inr inside)

/-- Each entry lies below the one that is kept for its key. -/
theorem fold_dominates (below : α → α → Prop) (refl : ∀ item, below item item)
    (trans : ∀ {a b c}, below a b → below b c → below a c) {items : List α}
    (ordered : items.Pairwise (Agrees beats below)) {item : α} (member : item ∈ items) :
    ∃ top ∈ items.foldl (put key beats) [], key top = key item ∧ below item top :=
  fold_dominates_from key beats refl trans (by simp) ordered (Or.inr member)

end Keyed

section Distinct

open Text

variable {α : Type} [BEq α] [LawfulBEq α]

private theorem distinct_snoc (front : List α) (next : α) : distinct (front ++ [next]) =
    if next ∈ distinct front then distinct front else distinct front ++ [next] := by
  simp only [distinct, List.foldl_append, List.foldl_cons, List.foldl_nil, List.contains_iff_mem]

@[simp] theorem mem_distinct {items : List α} {item : α} : item ∈ distinct items ↔ item ∈ items := by
  induction items using List.reverseRecOn with
  | nil => rfl
  | append_singleton front next ih =>
    rw [distinct_snoc]
    split
    next seen =>
      simp only [List.mem_append, List.mem_singleton, ih]
      exact ⟨Or.inl, fun member => member.elim id fun same => ih.mp (same ▸ seen)⟩
    next => simp only [List.mem_append, ih, List.mem_singleton]

theorem distinct_append_singleton (front : List α) (next : α) : distinct (front ++ [next]) =
    if next ∈ front then distinct front else distinct front ++ [next] := by
  simp only [distinct_snoc, mem_distinct]

theorem nodup_distinct (items : List α) : (distinct items).Nodup := by
  induction items using List.reverseRecOn with
  | nil => exact List.nodup_nil
  | append_singleton front next ih =>
    rw [distinct_append_singleton]
    split
    next => exact ih
    next fresh =>
      apply List.nodup_append.mpr
      refine ⟨ih, by simp, ?_⟩
      intro old member other singleton same
      rw [List.mem_singleton.mp singleton] at same
      exact fresh (mem_distinct.mp (same ▸ member))

theorem distinct_of_nodup {items : List α} (single : items.Nodup) : distinct items = items := by
  induction items using List.reverseRecOn with
  | nil => rfl
  | append_singleton front next ih =>
    have apart := List.nodup_append.mp single
    have fresh : next ∉ front := fun member => apart.2.2 next member next (List.mem_singleton_self next) rfl
    rw [distinct_append_singleton, if_neg fresh, ih apart.1]

omit [LawfulBEq α] in
private theorem distinct_behind {front front' : List α} (same : distinct front = distinct front') (more : List α) :
    distinct (front ++ more) = distinct (front' ++ more) := by
  rw [distinct, List.foldl_append, distinct, List.foldl_append]
  exact congrArg (more.foldl _) same

private theorem distinct_append_seen {front more : List α} (seen : ∀ item ∈ more, item ∈ front) :
    distinct (front ++ more) = distinct front := by
  induction more using List.reverseRecOn with
  | nil => rw [List.append_nil]
  | append_singleton more next ih =>
    obtain ⟨before, own⟩ := List.forall_mem_append.mp seen
    have present : next ∈ front ++ more := List.mem_append_left _ (own next (List.mem_singleton_self next))
    rw [← List.append_assoc, distinct_append_singleton, if_pos present, ih before]

/-- Repetitions may be dropped before each member is replaced by several. -/
theorem distinct_append_flatMap {β : Type} [BEq β] [LawfulBEq β] (front : List β) (f : α → List β) (items : List α) :
    distinct (front ++ (distinct items).flatMap f) = distinct (front ++ items.flatMap f) := by
  induction items using List.reverseRecOn with
  | nil => rfl
  | append_singleton items next ih =>
    rw [distinct_append_singleton, List.flatMap_append, List.flatMap_singleton, ← List.append_assoc]
    split
    next seen =>
      have present : ∀ item ∈ f next, item ∈ front ++ items.flatMap f := fun item member =>
        List.mem_append_right _ (List.mem_flatMap.mpr ⟨next, seen, member⟩)
      rw [ih, distinct_append_seen present]
    next =>
      rw [List.flatMap_append, List.flatMap_singleton, ← List.append_assoc]
      exact distinct_behind ih (f next)

/-- Repetitions may be dropped before a list is mapped. -/
theorem distinct_append_map {β : Type} [BEq β] [LawfulBEq β] (front : List β) (f : α → β) (items : List α) :
    distinct (front ++ (distinct items).map f) = distinct (front ++ items.map f) := by
  rw [List.map_eq_flatMap, List.map_eq_flatMap]
  exact distinct_append_flatMap front (fun item => [f item]) items

/-- Repetitions may be dropped among those that replace a member. -/
theorem distinct_flatMap_distinct {β : Type} (f : β → List α) (items : List β) :
    distinct (items.flatMap fun item => distinct (f item)) = distinct (items.flatMap f) := by
  induction items using List.reverseRecOn with
  | nil => rfl
  | append_singleton items next ih =>
    have last := distinct_append_map (items.flatMap fun item => distinct (f item)) id (f next)
    rw [List.map_id, List.map_id] at last
    rw [List.flatMap_append, List.flatMap_append, List.flatMap_singleton, List.flatMap_singleton, last]
    exact distinct_behind ih (f next)

end Distinct

theorem map_key_fold {α κ : Type} [BEq κ] [LawfulBEq κ] (key : α → κ) (beats : α → α → Bool)
    (items : List α) : (items.foldl (put key beats) []).map key = Text.distinct (items.map key) := by
  induction items using List.reverseRecOn with
  | nil => rfl
  | append_singleton front next ih =>
    rw [List.foldl_append, List.map_append, List.map_singleton, distinct_append_singleton,
      List.foldl_cons, List.foldl_nil, keys_put, ih]
    exact if_congr mem_distinct rfl rfl

end CascadeLens.Proofs.KeyedFold
