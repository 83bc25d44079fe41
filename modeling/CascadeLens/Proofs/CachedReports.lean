import CascadeLens.Analysis.Form
import CascadeLens.Proofs.CachedReadings
import CascadeLens.Proofs.CascadeDecisions

/-! Reports on projects that are read with a cache. A repeated stylesheet is answered with an earlier reading
of it, whose rules are then the same rules and not others that say the same. Only the cascade tells them
apart: rules that are the same count once, so a cache loses the conflicts between a stylesheet and its
repetition. -/

namespace CascadeLens.Proofs.CachedReports
open Text KeyedFold CascadeRanking CascadeCollapse CascadeArrival CascadeDecisions CachedReadings

/-- A rule of the reading of another number. -/
def renumberRule (number : Nat → Nat) (rule : Rule) : Rule := { rule with reading := number rule.reading }

def renumber (number : Nat → Nat) (item : Match) : Match := { item with rule := renumberRule number item.rule }

section Renumbered

variable {found : List Match} {number : Nat → Nat}

theorem ghosts_renumber (identity : Identity) (further : List Text) (language : PatternLanguage) :
    GhostReport.ofTexts? identity (found.map (renumber number)) further language =
      GhostReport.ofTexts? identity found further language := by
  have defined : definedClasses identity.classes (found.map (renumber number)) = definedClasses identity.classes found := by
    rw [definedClasses, List.flatMap_map]
    rfl
  have report : GhostReport.of identity (found.map (renumber number)) = GhostReport.of identity found := by
    unfold GhostReport.of
    rw [defined]
  rw [GhostReport.ofTexts?, report]
  rfl

theorem variables_renumber (sheets : List Stylesheet) :
    collectVariables (found.map (renumber number)) sheets = collectVariables found sheets := by
  have used : variableUsages (found.map (renumber number)) = variableUsages found := by
    rw [variableUsages, List.flatMap_map]
    rfl
  rw [collectVariables, used]
  rfl

theorem candidateOf_renumber (linkOrder : List Text) :
    candidateOf (found.map (renumber number)) linkOrder = candidateOf found linkOrder := by
  have sources : (found.map (renumber number)).map (·.rule.source) = found.map (·.rule.source) := by
    rw [List.map_map]
    rfl
  funext item placed
  rw [candidateOf, fileRank, sources]
  rfl

/-- A rule that declares something. -/
def declares (rule : Rule) : Bool := !(declarationsOf rule.body).isEmpty

theorem effective_nothing {rule : Rule} (silent : declares rule = false) : effective rule.body = [] := by
  have nothing : declarationsOf rule.body = [] := by simpa [declares] using silent
  rw [effective, nothing]
  rfl

private theorem flatMap_filter {α β : Type} {items : List α} {chosen : α → Bool} {parts : α → List β}
    (nothing : ∀ item ∈ items, chosen item = false → parts item = []) :
    (items.filter chosen).flatMap parts = items.flatMap parts := by
  induction items with
  | nil => rfl
  | cons item rest ih =>
    have later := ih fun other member => nothing other (List.mem_cons_of_mem _ member)
    cases taken : chosen item with
    | true => simp [taken, later]
    | false => simp [taken, later, nothing item List.mem_cons_self taken]

/-- Rules without declarations take no part in the cascade. -/
theorem candidates_declaring (found : List Match) (linkOrder : List Text) :
    candidates found linkOrder = (bestMatches (found.filter fun item => declares item.rule)).flatMap fun item =>
      (effective item.rule.body).map (candidateOf found linkOrder item) := by
  rw [candidates_eq, ← bestMatches_filter]
  symm
  apply flatMap_filter
  intro item _ silent
  rw [effective_nothing silent]
  rfl

/-- Nothing changes for the cascade while the rules that declare something keep their readings. -/
theorem candidates_renumber {linkOrder : List Text}
    (still : ∀ item ∈ found, declares item.rule → number item.rule.reading = item.rule.reading) :
    candidates (found.map (renumber number)) linkOrder = candidates found linkOrder := by
  have kept : (found.map (renumber number)).filter (fun item => declares item.rule) =
      found.filter fun item => declares item.rule := by
    rw [List.filter_map]
    refine (List.map_congr_left ?_).trans (List.map_id _)
    intro item member
    have same := still item (List.mem_filter.mp member).1 (List.mem_filter.mp member).2
    rw [renumber, renumberRule, same]
    rfl
  rw [candidates_declaring, candidates_declaring, candidateOf_renumber, kept]

/-- Where rules of two readings become the same, fewer take part. -/
theorem fewer_declaring {property : Text} {a b : Match} (first : a ∈ found) (second : b ∈ found) (apart : a.rule ≠ b.rule)
    (merged : renumberRule number a.rule = renumberRule number b.rule) (own : property ∈ declared a.rule)
    (linkOrder : List Text) :
    (rulesDeclaring property (found.map (renumber number)) linkOrder).length <
      (rulesDeclaring property found linkOrder).length := by
  have same : declared a.rule = declared b.rule := by
    have body : a.rule.body = b.rule.body := congrArg (·.body) merged
    rw [declared, declared, body]
  have inFirst : a.rule ∈ rulesDeclaring property found linkOrder :=
    mem_rulesDeclaring.mpr ⟨a, first, rfl, own⟩
  have inSecond : b.rule ∈ rulesDeclaring property found linkOrder :=
    mem_rulesDeclaring.mpr ⟨b, second, rfl, same ▸ own⟩
  -- The second rule is not needed to find all that are left.
  have covered : rulesDeclaring property (found.map (renumber number)) linkOrder ⊆
      ((rulesDeclaring property found linkOrder).erase b.rule).map (renumberRule number) := by
    intro rule member
    obtain ⟨_, moved, rfl, stated⟩ := mem_rulesDeclaring.mp member
    obtain ⟨item, inside, rfl⟩ := List.mem_map.mp moved
    have declaring : item.rule ∈ rulesDeclaring property found linkOrder := mem_rulesDeclaring.mpr ⟨item, inside, rfl, stated⟩
    by_cases same : item.rule = b.rule
    · refine List.mem_map.mpr ⟨a.rule, (List.mem_erase_of_ne apart).mpr inFirst, ?_⟩
      rw [merged, ← same]
      rfl
    · exact List.mem_map.mpr ⟨item.rule, (List.mem_erase_of_ne same).mpr declaring, rfl⟩
  have bound := ((nodup_rulesDeclaring property _ linkOrder).subperm covered).length_le
  have occupied := List.length_pos_of_mem inSecond
  rw [List.length_map, List.length_erase_of_mem inSecond] at bound
  omega

end Renumbered

section Forms

/-- A report with nothing decided. -/
def undecided (report : Report) : Report := { report with conflicts := [] }

theorem conflict_of_form {a b : Report} (same : a.form = b.form) {conflict : Conflict} (member : conflict ∈ a.conflicts) :
    ∃ other ∈ b.conflicts, other.property = conflict.property ∧ other.losers.length = conflict.losers.length := by
  have decided : a.conflicts.map (fun conflict => (conflict.property, Document.fields conflict.entries)) =
      b.conflicts.map fun conflict => (conflict.property, Document.fields conflict.entries) := by
    simp only [Report.form, Document.fields, List.map_cons, List.map_nil, Document.record.injEq, List.cons.injEq,
      Prod.mk.injEq, true_and] at same
    exact same.2.2.1
  obtain ⟨other, inside, alike⟩ := List.mem_map.mp (decided ▸ List.mem_map_of_mem member)
  obtain ⟨property, entries⟩ := Prod.mk.inj alike
  refine ⟨other, inside, property, ?_⟩
  simp only [Document.fields, Conflict.entries, List.map_cons, List.map_nil, Document.record.injEq, List.cons.injEq,
    Prod.mk.injEq, true_and, Document.list.injEq, and_true] at entries
  rw [← List.length_map Candidate.form, entries.2, List.length_map]

end Forms

section Readings

variable {identity : Identity} {settings : FileSettings} {sources : List Source} {readings : List Reading}

/-- The number of the reading that stands at a place. -/
def numberIn (readings : List Reading) (place : Nat) : Nat := (readings[place]?.map (·.number)).getD place

/-- Readings of the stylesheets, wherever they were made. -/
abbrev Reread (identity : Identity) (settings : FileSettings) : List Source → List Reading → Prop :=
  List.Forall₂ fun source reading => reading.file = source.analyze identity settings

theorem reread_of_readings (made : List.Forall₂ (IsReading identity settings sources) sources readings) :
    Reread identity settings sources readings := made.imp fun _ _ own => own.1

theorem readings_eq (made : Reread identity settings sources readings) :
    readings = sources.zipIdx.map fun placed => ⟨numberIn readings placed.2, placed.1.analyze identity settings⟩ := by
  apply List.ext_getElem
  · simpa using made.length_eq.symm
  · intro place inside inside'
    have own := made.get (by simpa using inside') inside
    simp only [List.get_eq_getElem] at own
    simp [numberIn, inside, ← own]

theorem numberIn_place (made : List.Forall₂ (IsReading identity settings sources) sources readings) {place : Nat}
    {source : Source} (stands : sources[place]? = some source) : sources[numberIn readings place]? = some source := by
  obtain ⟨inside, rfl⟩ := List.getElem?_eq_some_iff.mp stands
  have inside' : place < readings.length := made.length_eq ▸ inside
  have own := made.get inside inside'
  rw [numberIn, List.getElem?_eq_getElem inside']
  exact own.2

theorem found_readings (made : Reread identity settings sources readings) :
    readings.flatMap (·.found) =
      ((readAllFresh identity settings sources).flatMap (·.found)).map (renumber (numberIn readings)) := by
  have listed : readings.flatMap (·.found) = (sources.zipIdx.map fun placed =>
      (⟨numberIn readings placed.2, placed.1.analyze identity settings⟩ : Reading)).flatMap (·.found) :=
    congrArg _ (readings_eq made)
  rw [listed, List.flatMap_map, readAllFresh, List.flatMap_map, List.map_flatMap]
  apply List.flatMap_congr
  intro placed _
  rw [Reading.found, Reading.found, List.map_map]
  rfl

theorem files_readings (made : Reread identity settings sources readings) :
    readings.map (·.file) = (readAllFresh identity settings sources).map (·.file) := by
  have listed : readings.map (·.file) = (sources.zipIdx.map fun placed =>
      (⟨numberIn readings placed.2, placed.1.analyze identity settings⟩ : Reading)).map (·.file) :=
    congrArg _ (readings_eq made)
  rw [listed, List.map_map, readAllFresh, List.map_map]
  rfl

/-- A match as it stands in the reading of a place. -/
def atPlace (place : Nat) (item : Match) : Match := { item with rule := { item.rule with reading := place } }

theorem mem_fresh_found {item : Match} : item ∈ (readAllFresh identity settings sources).flatMap (·.found) ↔
    ∃ place source, sources[place]? = some source ∧ ∃ own ∈ (source.analyze identity settings).found,
      atPlace place own = item := by
  simp only [readAllFresh, List.flatMap_map, List.mem_flatMap, Prod.exists, List.mem_zipIdx_iff_getElem?, Reading.found,
    List.mem_map]
  exact ⟨fun ⟨source, place, stands, own⟩ => ⟨place, source, stands, own⟩,
    fun ⟨place, source, stands, own⟩ => ⟨source, place, stands, own⟩⟩

theorem conflicts_of_report {linkOrder : List Text} {config : Config} {report : Report}
    (made : Report.ofReadings? identity linkOrder config readings = some report) :
    report.conflicts = resolveConflicts (collectDeclarations (readings.flatMap (·.found)) linkOrder) := by
  obtain ⟨ghosts, -, rfl⟩ := Option.map_eq_some_iff.mp made
  rfl

/-- A report on other readings of the same stylesheets differs in its conflicts only. -/
theorem report_readings (made : Reread identity settings sources readings) (linkOrder : List Text) (config : Config)
    {language : PatternLanguage} : Report.ofReadings? identity linkOrder config readings language =
      (Report.ofReadings? identity linkOrder config (readAllFresh identity settings sources) language).map fun report =>
        { report with conflicts := resolveConflicts (collectDeclarations
            (((readAllFresh identity settings sources).flatMap (·.found)).map (renumber (numberIn readings))) linkOrder) } := by
  simp only [Report.ofReadings?, found_readings made, files_readings made, ghosts_renumber, variables_renumber,
    Option.map_map]
  rfl

end Readings

section Reports

variable {identity : Identity} {sources : List Source} {linkOrder : List Text} {config : Config}

/-- No stylesheet that stands among the others again has a matching rule with declarations. -/
def RepeatsDeclareNothing (identity : Identity) (settings : FileSettings) (sources : List Source) : Prop :=
  sources.Pairwise fun a b => a = b → ∀ item ∈ (a.analyze identity settings).found, declares item.rule = false

theorem repeats_iff {settings : FileSettings} : RepeatsDeclareNothing identity settings sources ↔
    ∀ (place other : Nat) (source : Source), place < other → sources[place]? = some source → sources[other]? = some source →
      ∀ item ∈ (source.analyze identity settings).found, declares item.rule = false := by
  simp only [RepeatsDeclareNothing, List.pairwise_iff_getElem, List.getElem?_eq_some_iff]
  constructor
  · rintro silent place other source before ⟨inside, rfl⟩ ⟨inside', same⟩
    exact silent place other inside inside' before same.symm
  · intro silent place other inside inside' before same
    exact silent place other _ before ⟨inside, rfl⟩ ⟨inside', same.symm⟩

theorem report_cached (used : config.useCache = true) (cache : AnalysisCache) :
    (analyzeProject identity sources linkOrder config (some cache)).1 =
      Report.ofReadings? identity linkOrder config (cache.readAll identity config.toFileSettings 0 sources).1 := by
  simp [analyzeProject, used]

theorem report_fresh {language : PatternLanguage} : (analyzeProject identity sources linkOrder config none language).1 =
    Report.ofReadings? identity linkOrder config (readAllFresh identity config.toFileSettings sources) language := by
  simp [analyzeProject]

variable {settings : FileSettings} {capacity : Nat}

theorem readAll_readings (identity : Identity) (settings : FileSettings) (agreed : Agreed sources)
    (apart : DigestsApart sources) (capacity : Nat) :
    List.Forall₂ (IsReading identity settings sources) sources
      (AnalysisCache.readAll identity settings { capacity } 0 sources).1 := by
  simpa using ((traced_start capacity).readAll agreed apart (List.Subset.refl sources)).readings

/-- With room for all stylesheets the first reading of each is kept, so its repetitions are answered with it. -/
theorem numberIn_repeated (identity : Identity) (settings : FileSettings) (room : sources.length ≤ capacity)
    {place other : Nat} {source : Source} (first : sources[place]? = some source)
    (second : sources[other]? = some source) :
    let readings := (AnalysisCache.readAll identity settings { capacity } 0 sources).1
    numberIn readings place = numberIn readings other := by
  intro readings
  have kept : Remembered identity settings (AnalysisCache.readAll identity settings { capacity } 0 sources).2 sources readings := by
    have start : Remembered identity settings { capacity } [] [] := .nil
    simpa using start.readAll 0 (by simpa using room)
  obtain ⟨reading, stands, held⟩ := kept.at_place first
  obtain ⟨reading', stands', held'⟩ := kept.at_place second
  obtain rfl : reading = reading' := Option.some.inj (held.symm.trans held')
  rw [numberIn, numberIn, stands, stands']
  rfl

/-- The readings of a project keep all numbers that the cascade looks at if its repetitions declare nothing. -/
theorem report_of_silent (agreed : Agreed sources) (apart : DigestsApart sources) (used : config.useCache = true)
    (silent : RepeatsDeclareNothing identity config.toFileSettings sources) (capacity : Nat) :
    (analyzeProject identity sources linkOrder config (some { capacity })).1 =
      (analyzeProject identity sources linkOrder config none).1 := by
  have made := readAll_readings identity config.toFileSettings agreed apart capacity
  rw [report_cached used, report_fresh, report_readings (reread_of_readings made), collectDeclarations, candidates_renumber]
  · rw [Report.ofReadings?, Option.map_map]
    rfl
  · intro item member declaring
    obtain ⟨place, source, stands, own, found, rfl⟩ := mem_fresh_found.mp member
    by_contra moved
    have repeated := numberIn_place made stands
    have nothing : declares own.rule = false := by
      rcases Nat.lt_or_gt_of_ne moved with before | after
      · exact repeats_iff.mp silent _ _ source before repeated stands own found
      · exact repeats_iff.mp silent _ _ source after stands repeated own found
    have same : declares (atPlace place own).rule = declares own.rule := rfl
    rw [same, nothing] at declaring
    cases declaring

/-- Two places that are answered with one reading have fewer rules to decide between. -/
theorem fewer_of_repeated {place other : Nat} {source : Source} (before : place < other) (stands : sources[place]? = some source)
    (stands' : sources[other]? = some source) {number : Nat → Nat} (same : number place = number other) {item : Match}
    (member : item ∈ (source.analyze identity settings).found) {property : Text} (own : property ∈ declared item.rule)
    (linkOrder : List Text) :
    let found := (readAllFresh identity settings sources).flatMap (·.found)
    (rulesDeclaring property (found.map (renumber number)) linkOrder).length <
        (rulesDeclaring property found linkOrder).length ∧
      0 < (rulesDeclaring property (found.map (renumber number)) linkOrder).length := by
  intro found
  have first : atPlace place item ∈ found := mem_fresh_found.mpr ⟨place, source, stands, item, member, rfl⟩
  have second : atPlace other item ∈ found := mem_fresh_found.mpr ⟨other, source, stands', item, member, rfl⟩
  have apart : (atPlace place item).rule ≠ (atPlace other item).rule := fun equal => before.ne (congrArg (·.reading) equal)
  have merged : renumberRule number (atPlace place item).rule = renumberRule number (atPlace other item).rule :=
    congrArg (fun reading => (⟨{ item.rule.toStyleBlock with reading }, item.rule.outer⟩ : Rule)) same
  refine ⟨fewer_declaring first second apart merged own linkOrder, ?_⟩
  exact List.length_pos_of_mem (mem_rulesDeclaring.mpr ⟨_, List.mem_map_of_mem first, rfl, own⟩)

/-- With room for all stylesheets, a stylesheet and its repetition are no longer in conflict with each other,
which the report shows. -/
theorem silent_of_form (agreed : Agreed sources) (apart : DigestsApart sources) (used : config.useCache = true)
    (room : sources.length ≤ capacity) (made : (analyzeProject identity sources linkOrder config none).1.isSome)
    (same : (analyzeProject identity sources linkOrder config (some { capacity })).1.map Report.form =
      (analyzeProject identity sources linkOrder config none).1.map Report.form) :
    RepeatsDeclareNothing identity config.toFileSettings sources := by
  refine repeats_iff.mpr fun place other source before stands stands' item member => ?_
  by_contra declaring
  obtain ⟨declaration, stated⟩ : ∃ declaration, declaration ∈ declarationsOf item.rule.body :=
    List.exists_mem_of_ne_nil _ (by simpa [declares] using declaring)
  have own : declaration.property ∈ declared item.rule := List.mem_map_of_mem stated
  have merged := numberIn_repeated identity config.toFileSettings room stands stands'
  obtain ⟨fewer, occupied⟩ := fewer_of_repeated before stands stands' merged member own linkOrder
  obtain ⟨report, fresh⟩ := Option.isSome_iff_exists.mp made
  have readings := readAll_readings identity config.toFileSettings agreed apart capacity
  rw [report_cached used, report_readings (reread_of_readings readings), ← report_fresh, fresh] at same
  rw [report_fresh] at fresh
  have decided := conflicts_of_report fresh
  have several : 2 ≤ (rulesDeclaring declaration.property
      ((readAllFresh identity config.toFileSettings sources).flatMap (·.found)) linkOrder).length := by omega
  obtain ⟨conflict, lost, same'⟩ := conflict_of_several several
  obtain ⟨found, kept, property, losers⟩ := conflict_of_form (Option.some.inj same).symm (decided ▸ lost)
  have count := conflict_length lost
  have count' := conflict_length kept
  rw [property, same'] at count'
  rw [same'] at count
  omega

end Reports

/-- A cache changes no part of a report but its conflicts, and over all capacities it changes none of them
exactly if no repeated stylesheet has a matching rule with declarations. -/
theorem cached_report_iff (identity : Identity) (sources : List Source) (linkOrder : List Text) (config : Config)
    (used : config.useCache = true) (agreed : Agreed sources) (apart : DigestsApart sources) :
    let fresh := (analyzeProject identity sources linkOrder config none).1
    let cached := fun capacity => (analyzeProject identity sources linkOrder config (some { capacity })).1
    (∀ capacity, (cached capacity).map undecided = fresh.map undecided) ∧
    ((∀ capacity, 1 ≤ capacity → (cached capacity).map Report.form = fresh.map Report.form) ↔
      (fresh.isSome → RepeatsDeclareNothing identity config.toFileSettings sources)) := by
  intro fresh cached
  refine ⟨?_, ?_, ?_⟩
  · intro capacity
    have made := readAll_readings identity config.toFileSettings agreed apart capacity
    simp only [cached, fresh, report_cached used, report_fresh, report_readings (reread_of_readings made), Option.map_map]
    rfl
  · intro same made
    exact silent_of_form agreed apart used (Nat.le_succ _) made (same (sources.length + 1) (Nat.succ_pos _))
  · intro silent capacity _
    cases made : fresh with
    | some report =>
      have equal : cached capacity = fresh := report_of_silent agreed apart used (silent (by rw [made]; rfl)) capacity
      rw [equal, made]
    | none =>
      have absent : cached capacity = none := by
        have readings := readAll_readings identity config.toFileSettings agreed apart capacity
        simp only [cached, report_cached used, report_readings (reread_of_readings readings), ← report_fresh]
        rw [Option.map_eq_none_iff]
        exact made
      rw [absent]

def menuTarget : Identity := { classes := ["menu".toList] }

def menuSheet (name body : String) : Source := ⟨name.toList, ".menu\x7b".toList ++ body.toList ++ "\x7d".toList, .css⟩

def redSheet : Source := menuSheet "a.css" "color:red"

/-- A stylesheet that is listed twice conflicts with itself, but not if it is read once. -/
theorem repeated_sheet_loses_conflict :
    (analyzeProject menuTarget [redSheet, redSheet] [] {} (some { capacity := 50 })).1.map Report.form ≠
      (analyzeProject menuTarget [redSheet, redSheet] [] {} none).1.map Report.form := by
  intro same
  have agreed : Agreed [redSheet, redSheet] := by simp [Agreed]
  have apart : DigestsApart [redSheet, redSheet] := by simp [DigestsApart]
  have room : [redSheet, redSheet].length ≤ 50 := by decide
  have made : (analyzeProject menuTarget [redSheet, redSheet] [] {} none).1.isSome = true := by
    rw [report_fresh]
    rfl
  have declaring : (redSheet.analyze menuTarget {}).found.any (fun item => declares item.rule) = true := by decide +kernel
  obtain ⟨item, member, declares⟩ := List.any_eq_true.mp declaring
  have silent := silent_of_form agreed apart rfl room made same
  rw [(List.pairwise_cons.mp silent).1 redSheet List.mem_cons_self rfl item member] at declares
  cases declares

/-- A stylesheet whose rule is empty may be listed again. -/
theorem empty_rule_repeats :
    let sources := [menuSheet "a.css" "", redSheet, menuSheet "a.css" "", menuSheet "b.css" "color:blue"]
    Agreed sources ∧ DigestsApart sources ∧ ∀ capacity, 1 ≤ capacity →
      (analyzeProject menuTarget sources [] {} (some { capacity })).1.map Report.form =
        (analyzeProject menuTarget sources [] {} none).1.map Report.form := by
  intro sources
  have agreed : Agreed sources := by decide
  have apart : DigestsApart sources := by decide +kernel
  have silent : ∀ item ∈ ((menuSheet "a.css" "").analyze menuTarget {}).found, declares item.rule = false := by
    have computed : ((menuSheet "a.css" "").analyze menuTarget {}).found.all (fun item => !declares item.rule) = true := by
      decide +kernel
    simpa using computed
  have only : sources.Pairwise fun a b => a = b → a = menuSheet "a.css" "" := by decide
  have repeats : RepeatsDeclareNothing menuTarget {} sources := by
    refine only.imp fun found same => ?_
    rw [found same]
    exact silent
  exact ⟨agreed, apart, (cached_report_iff menuTarget sources [] {} rfl agreed apart).2.mpr fun _ => repeats⟩

end CascadeLens.Proofs.CachedReports
