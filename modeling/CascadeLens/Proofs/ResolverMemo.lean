import CascadeLens.Selector.Nesting

/-! A resolver that is asked for one rule after another. What it remembers are the selectors of the
rules themselves, so what it was asked before never shows in an answer. -/

namespace CascadeLens.Proofs.ResolverMemo

inductive ResolverStep where
  | resolve (rule : Rule)
  | clear

def taken (resolver : Resolver) : ResolverStep → Resolver
  | .resolve rule => (resolver.resolve rule).2
  | .clear => resolver.clear

def resolverAfter (bound : Int) (steps : List ResolverStep) : Resolver := steps.foldl taken { bound }

def Remembers (known : List (Rule × List Text)) : Prop := ∀ entry ∈ known, entry.2 = entry.1.variants

private theorem remembers_lookup {known : List (Rule × List Text)} (remembers : Remembers known) {rule : Rule}
    {found : List Text} (held : Resolver.lookup known rule = some found) : found = rule.variants := by
  obtain ⟨entry, first, rfl⟩ := Option.map_eq_some_iff.mp held
  have same : entry.1 = rule := by simpa using List.find?_some first
  rw [← same]
  exact remembers entry (List.mem_of_find?_eq_some first)

private theorem remembers_cons {known : List (Rule × List Text)} (remembers : Remembers known) {rule : Rule}
    {found : List Text} (same : found = rule.variants) : Remembers ((rule, found) :: known) := by
  intro entry member
  rcases List.mem_cons.mp member with rfl | old
  · exact same
  · exact remembers entry old

theorem variants_remembers {known : List (Rule × List Text)} (remembers : Remembers known) (own : StyleBlock)
    (outer : List StyleBlock) :
    (Resolver.variants known own outer).1 = variants own outer ∧ Remembers (Resolver.variants known own outer).2 := by
  induction outer generalizing own with
  | nil =>
    unfold Resolver.variants
    split
    next held => exact ⟨remembers_lookup remembers held, remembers⟩
    next => exact ⟨rfl, remembers_cons remembers rfl⟩
  | cons parent outer ih =>
    unfold Resolver.variants
    split
    next held => exact ⟨remembers_lookup remembers held, remembers⟩
    next =>
      obtain ⟨same, onward⟩ := ih parent
      have result : fanOut (Resolver.variants known parent outer).1 own.selector = variants own (parent :: outer) := by
        rw [same, variants]
      exact ⟨result, remembers_cons onward result⟩

theorem after_remembers (bound : Int) (steps : List ResolverStep) : Remembers (resolverAfter bound steps).known := by
  -- Every step keeps what is remembered true, whatever resolver it starts from.
  have run : ∀ resolver : Resolver, Remembers resolver.known → Remembers (steps.foldl taken resolver).known := by
    induction steps with
    | nil => exact fun _ remembers => remembers
    | cons step steps ih =>
      intro resolver remembers
      apply ih
      cases step with
      | resolve rule => exact (variants_remembers remembers rule.toStyleBlock rule.outer).2
      | clear => exact fun _ member => nomatch member
  exact run { bound } fun _ member => nomatch member

theorem resolve_after (bound : Int) (steps : List ResolverStep) (rule : Rule) :
    ((resolverAfter bound steps).resolve rule).1 = rule.variants.map Resolved.ofText := by
  have same := (variants_remembers (after_remembers bound steps) rule.toStyleBlock rule.outer).1
  have shown : ((resolverAfter bound steps).resolve rule).1 =
      (Resolver.variants (resolverAfter bound steps).known rule.toStyleBlock rule.outer).1.map Resolved.ofText := rfl
  rw [shown, same]
  rfl

section Sessions

variable {bound : Int} {steps : List ResolverStep} {resolver : Resolver}

/-- The answer of a resolver that was asked nothing before. -/
def answerAlone (rule : Rule) : List Resolved := (Resolver.resolve {} rule).1

/-- The rules among those asked for whose selectors are more than the bound allows, in the order of asking. -/
def fannedOut (bound : Int) (asked : List Rule) : List (Rule × Nat) :=
  (asked.map fun rule => (rule, (answerAlone rule).length)).filter fun (_, count) => bound < count

/-- What a resolver answers to each step, and the warnings it holds behind it. -/
def session (resolver : Resolver) : List ResolverStep → List (Option (List Resolved) × List (Rule × Nat))
  | [] => []
  | .resolve rule :: steps =>
    let (answer, after) := resolver.resolve rule
    (some answer, after.warnings) :: session after steps
  | .clear :: steps => (none, resolver.clear.warnings) :: session resolver.clear steps

/-- The same without a memory for selectors: every rule is resolved from scratch, and only the rules asked for since
the last clearing are known. -/
def sessionAlone (bound : Int) (asked : List Rule) :
    List ResolverStep → List (Option (List Resolved) × List (Rule × Nat))
  | [] => []
  | .resolve rule :: steps =>
    (some (answerAlone rule), fannedOut bound (asked ++ [rule])) :: sessionAlone bound (asked ++ [rule]) steps
  | .clear :: steps => (none, fannedOut bound []) :: sessionAlone bound [] steps

theorem resolve_remembering (remembers : Remembers resolver.known) (rule : Rule) :
    (resolver.resolve rule).1 = answerAlone rule ∧ Remembers (resolver.resolve rule).2.known := by
  have fresh : Remembers ({} : Resolver).known := fun _ member => nomatch member
  obtain ⟨same, onward⟩ := variants_remembers remembers rule.toStyleBlock rule.outer
  obtain ⟨alone, -⟩ := variants_remembers fresh rule.toStyleBlock rule.outer
  exact ⟨congrArg (List.map Resolved.ofText) (same.trans alone.symm), onward⟩

theorem fannedOut_append_singleton (asked : List Rule) (rule : Rule) :
    fannedOut bound (asked ++ [rule]) = fannedOut bound asked ++
      if bound < (answerAlone rule).length then [(rule, (answerAlone rule).length)] else [] := by
  simp [fannedOut, List.filter_cons]

/-- A rule that is asked for adds to the warnings exactly if it fans out too far by itself. -/
theorem resolve_warnings (remembers : Remembers resolver.known) (asked : List Rule)
    (held : resolver.warnings = fannedOut resolver.bound asked) (rule : Rule) :
    (resolver.resolve rule).2.warnings = fannedOut resolver.bound (asked ++ [rule]) := by
  have same := (resolve_remembering remembers rule).1
  have count : (Resolver.variants resolver.known rule.toStyleBlock rule.outer).1.length = (answerAlone rule).length := by
    rw [← same]
    exact (List.length_map _).symm
  have shown : (resolver.resolve rule).2.warnings =
      if resolver.bound < (answerAlone rule).length then resolver.warnings ++ [(rule, (answerAlone rule).length)]
      else resolver.warnings := by
    rw [← count]
    rfl
  rw [shown, fannedOut_append_singleton, held]
  split
  · rfl
  · rw [List.append_nil]

/-- The memory of a resolver never shows: not in its answers, nor in the warnings it holds at any moment. -/
theorem session_unaffected (bound : Int) (steps : List ResolverStep) :
    session { bound } steps = sessionAlone bound [] steps := by
  -- Along the session what is remembered stays true and the warnings are those of the rules asked for.
  have along : ∀ (resolver : Resolver) (asked : List Rule), resolver.bound = bound → Remembers resolver.known →
      resolver.warnings = fannedOut bound asked → session resolver steps = sessionAlone bound asked steps := by
    induction steps with
    | nil => exact fun _ _ _ _ _ => rfl
    | cons step steps ih =>
      rintro resolver asked rfl remembers held
      cases step with
      | resolve rule =>
        obtain ⟨same, onward⟩ := resolve_remembering remembers rule
        have warned := resolve_warnings remembers asked held rule
        rw [session, sessionAlone, ← same, ← warned, ← ih (resolver.resolve rule).2 (asked ++ [rule]) rfl onward warned]
      | clear =>
        rw [session, sessionAlone, ih resolver.clear [] rfl (fun _ member => nomatch member) rfl]
        rfl
  exact along { bound } [] rfl (fun _ member => nomatch member) rfl

end Sessions

end CascadeLens.Proofs.ResolverMemo
