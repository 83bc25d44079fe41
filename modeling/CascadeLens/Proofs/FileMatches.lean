import CascadeLens.Analysis.File
import CascadeLens.Proofs.ResolverMemo

/-! What the analysis of a stylesheet finds: each selector that each rule stands for is matched by itself,
whatever the resolver remembers, and a source that is not read has no matches. -/

namespace CascadeLens.Proofs.FileMatches
open Text ResolverMemo

theorem resolveAll_variants {resolver : Resolver} (remembers : Remembers resolver.known) (rules : List Rule) :
    (resolveAll resolver rules).1 =
      rules.flatMap fun rule => rule.variants.map fun text => (rule, Resolved.ofText text) := by
  induction rules generalizing resolver with
  | nil => rfl
  | cons rule rest ih =>
    obtain ⟨same, onward⟩ := variants_remembers remembers rule.toStyleBlock rule.outer
    have own : (resolver.resolve rule).1 = rule.variants.map Resolved.ofText := congrArg (List.map Resolved.ofText) same
    simp only [resolveAll, List.flatMap_cons, own, List.map_map]
    exact congrArg _ (ih onward)

variable {identity : Identity} {settings : FileSettings}

theorem found_eq (identity : Identity) (settings : FileSettings) (minified : Bool) (sheet : Stylesheet) :
    (FileAnalysis.ofSheet identity settings minified sheet).found =
      sheet.rules.flatMap fun rule => rule.variants.filterMap fun text => identity.match? rule (.ofText text) := by
  have empty : Remembers ({ bound := settings.fanOutBound } : Resolver).known := fun _ member => nomatch member
  simp only [FileAnalysis.ofSheet, resolveAll_variants empty, List.filterMap_flatMap, List.filterMap_map]
  rfl

theorem mem_found {minified : Bool} {sheet : Stylesheet} {found : Match} :
    found ∈ (FileAnalysis.ofSheet identity settings minified sheet).found ↔
      ∃ rule ∈ sheet.rules, ∃ text ∈ rule.variants, identity.match? rule (.ofText text) = some found := by
  simp only [found_eq, List.mem_flatMap, List.mem_filterMap]

/-- The match of a selector says for which reasons it is one, and there is none without a reason. -/
theorem match_cases (identity : Identity) (rule : Rule) (text : Text) :
    (identity.reasons text = [] ∧ identity.match? rule (.ofText text) = none) ∨
      identity.match? rule (.ofText text) = some ⟨text, identity.reasons text, rule, identity.specificityOf text⟩ := by
  have asked : identity.reasonsIn (Resolved.ofText text).text (Resolved.ofText text).expanded = identity.reasons text := rfl
  rw [Identity.match?, asked]
  cases given : identity.reasons text with
  | nil => exact Or.inl ⟨rfl, rfl⟩
  | cons reason more => exact Or.inr rfl

/-- A source that is read and has something in it. -/
structure Analyzed (settings : FileSettings) (source : Source) (sheet : Stylesheet) : Prop where
  dialect : source.dialect ≠ .sass
  unskipped : (settings.skipMinified && (isMinified source.text || hasMinifiedName source.name)) = false
  parsed : Stylesheet.parse source.text source.name source.dialect = .ok sheet
  filled : sheet.isEmpty = false

theorem analyze_of_analyzed {source : Source} {sheet : Stylesheet} (analyzed : Analyzed settings source sheet) :
    source.analyze identity settings = FileAnalysis.ofSheet identity settings (isMinified source.text) sheet := by
  obtain ⟨dialect, unskipped, parsed, filled⟩ := analyzed
  simp [Source.analyze, dialect, unskipped, parsed, filled]

theorem analyze_cases (identity : Identity) (settings : FileSettings) (source : Source) :
    ((source.analyze identity settings).found = [] ∧ (source.analyze identity settings).sheet = none) ∨
      ∃ sheet, Analyzed settings source sheet ∧
        source.analyze identity settings = FileAnalysis.ofSheet identity settings (isMinified source.text) sheet := by
  by_cases indented : source.dialect = .sass
  · exact Or.inl (by simp [Source.analyze, indented])
  cases skipped : settings.skipMinified && (isMinified source.text || hasMinifiedName source.name) with
  | true => exact Or.inl (by simp [Source.analyze, indented, skipped])
  | false =>
    cases parsed : Stylesheet.parse source.text source.name source.dialect with
    | error fault => exact Or.inl (by simp [Source.analyze, indented, skipped, parsed])
    | ok sheet =>
      cases filled : sheet.isEmpty with
      | true => exact Or.inl (by simp [Source.analyze, indented, skipped, parsed, filled])
      | false =>
        have analyzed : Analyzed settings source sheet := ⟨indented, skipped, parsed, filled⟩
        exact Or.inr ⟨sheet, analyzed, analyze_of_analyzed analyzed⟩

end CascadeLens.Proofs.FileMatches
