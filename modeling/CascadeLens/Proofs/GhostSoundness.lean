import CascadeLens.Proofs.FeatureSearch
import CascadeLens.Proofs.FileMatches
import CascadeLens.Proofs.TextShape
import CascadeLens.Proofs.WorkerReports

/-! Ghost reports. A reason is written as text and read back, matches are gathered from every file, and
still a class is reported as missing exactly if no match of the project is about it. -/

namespace CascadeLens.Proofs.GhostSoundness
open Text TextShape CacheEntries CachedReadings CachedReports FeatureSearch FileMatches KeyedFold WorkerInterleaving WorkerReports

section Reasons

theorem classOfReason_class {name : Text} (filled : name ≠ []) (trimmed : Trimmed name) :
    classOfReason? (Feature.className name).reason = some name := by
  have solid : blank (' ' :: name) = false := by
    obtain ⟨c, rest, rfl⟩ := List.exists_cons_of_ne_nil filled
    have first : isBlank c = false := trimmed.first c rfl
    simp [blank, first]
  have bare : trim (' ' :: name) = name := by
    have read := @trim_between_blanks [' '] name [] (by decide) (by decide) trimmed
    rwa [List.append_nil] at read
  have parted : cut ':' (Feature.className name).reason = ("class".toList, some (' ' :: name)) := rfl
  simp only [classOfReason?, parted, solid, bare]
  rfl

/-- A reason names a class only if it was given for one. -/
theorem named_className {feature : Feature} {name : Text} (named : classOfReason? feature.reason = some name) :
    ∃ given, feature = .className given := by
  cases feature with
  | className given => exact ⟨given, rfl⟩
  | idName other => cases named
  | tag other => cases named
  | dataAttribute other => cases named

end Reasons

/-- The classes of an element as they are gathered: never empty, never blank at an end. -/
def Clean (identity : Identity) : Prop := ∀ name ∈ identity.classes, name ≠ [] ∧ Trimmed name

theorem gather_clean (classes ids : List Text) (tag : Text) (attributes parts : List Text) :
    Clean (Identity.gather classes ids tag attributes parts) := by
  intro name member
  obtain ⟨listed, filled⟩ := List.mem_filter.mp (mem_distinct.mp member)
  obtain ⟨raw, _, rfl⟩ := List.mem_map.mp listed
  exact ⟨by simpa using filled, trim_trimmed raw⟩

theorem listed_of_feature {identity : Identity} {name : Text} (member : Feature.className name ∈ identity.features) :
    name ∈ identity.classes := by
  unfold Identity.features at member
  split at member <;> simpa using member

section Files

variable {identity : Identity} {settings : FileSettings}

/-- Every reason of a match is that of a feature of the target. -/
theorem found_reason {source : Source} {found : Match} (member : found ∈ (source.analyze identity settings).found)
    {reason : Text} (given : reason ∈ found.reasons) : ∃ feature ∈ identity.features, reason = feature.reason := by
  rcases analyze_cases identity settings source with ⟨nothing, _⟩ | ⟨sheet, _, same⟩
  · rw [nothing] at member
    cases member
  · rw [same] at member
    obtain ⟨rule, _, text, _, matched⟩ := mem_found.mp member
    rcases match_cases identity rule text with ⟨_, missed⟩ | hit
    · rw [missed] at matched
      cases matched
    · rw [hit] at matched
      obtain rfl := Option.some.inj matched
      exact feature_of_reason given

/-- A selector of a rule that shows a class has a match that is about it. -/
theorem found_of_shows {source : Source} {sheet : Stylesheet} (read : (source.analyze identity settings).sheet = some sheet)
    {rule : Rule} (member : rule ∈ sheet.rules) {name text : Text} (variant : text ∈ rule.variants)
    (listed : name ∈ identity.classes) (shown : Shows name text) :
    ∃ found ∈ (source.analyze identity settings).found, (Feature.className name).reason ∈ found.reasons := by
  rcases analyze_cases identity settings source with ⟨_, unread⟩ | ⟨other, _, same⟩
  · rw [unread] at read
    cases read
  · rw [same] at read ⊢
    obtain rfl : other = sheet := Option.some.inj read
    have given := reason_of_shows listed shown
    rcases match_cases identity rule text with ⟨silent, _⟩ | hit
    · rw [silent] at given
      cases given
    · exact ⟨_, mem_found.mpr ⟨rule, member, text, variant, hit⟩, given⟩

end Files

section Reports

variable {identity : Identity} {settings : FileSettings}

/-- Readings that each are the analysis of some source. -/
def Genuine (identity : Identity) (settings : FileSettings) (readings : List Reading) : Prop :=
  ∀ reading ∈ readings, ∃ source : Source, reading.file = source.analyze identity settings

theorem mem_defined {readings : List Reading} (clean : Clean identity) (genuine : Genuine identity settings readings)
    {name : Text} (listed : name ∈ identity.classes) :
    name ∈ definedClasses identity.classes (readings.flatMap (·.found)) ↔
      ∃ found ∈ (readings.map (·.file)).flatMap (·.found),
        (Feature.className name).reason ∈ found.reasons ∨ name <:+: found.selector := by
  have own : classOfReason? (Feature.className name).reason = some name :=
    classOfReason_class (clean name listed).1 (clean name listed).2
  simp only [definedClasses, mem_distinct, List.mem_flatMap, List.mem_map, Reading.found, Match.classesAmong,
    List.mem_append, List.mem_filterMap, List.mem_filter, holds_iff]
  constructor
  · rintro ⟨_, ⟨reading, member, found, inside, rfl⟩, ⟨reason, given, named⟩ | ⟨_, stands⟩⟩
    · obtain ⟨source, same⟩ := genuine reading member
      rw [same] at inside
      obtain ⟨feature, present, rfl⟩ := found_reason inside given
      obtain ⟨other, rfl⟩ := named_className named
      have decent := clean other (listed_of_feature present)
      obtain rfl := Option.some.inj ((classOfReason_class decent.1 decent.2).symm.trans named)
      exact ⟨found, ⟨_, ⟨reading, member, rfl⟩, same ▸ inside⟩, Or.inl given⟩
    · exact ⟨found, ⟨_, ⟨reading, member, rfl⟩, inside⟩, Or.inr stands⟩
  · rintro ⟨found, ⟨_, ⟨reading, member, rfl⟩, inside⟩, given | stands⟩
    · exact ⟨_, ⟨reading, member, found, inside, rfl⟩, Or.inl ⟨_, given, own⟩⟩
    · exact ⟨_, ⟨reading, member, found, inside, rfl⟩, Or.inr ⟨listed, stands⟩⟩

/-- What a report says about the classes of its target. -/
structure Sound (identity : Identity) (tests : List (Text → Bool)) (report : Report) : Prop where
  ghost_iff : ∀ name ∈ identity.classes, name ∈ report.ghosts.ghosts ↔
    isExempt tests name = false ∧
      ∀ found ∈ report.found, "class: ".toList ++ name ∉ found.reasons ∧ ¬ name <:+: found.selector
  shown : ∀ file ∈ report.files, ∀ sheet, file.sheet = some sheet → ∀ rule ∈ sheet.rules, ∀ text ∈ rule.variants,
    ∀ name ∈ identity.classes, Shows name text → name ∈ report.ghosts.defined ∧ name ∉ report.ghosts.ghosts
  apart : report.ghosts.ghosts.Disjoint report.ghosts.defined
  ghosts_order : report.ghosts.ghosts.Sublist identity.classes
  defined_order : report.ghosts.defined.Sublist identity.classes

theorem ofTexts_eq (identity : Identity) (found : List Match) {language : PatternLanguage} {texts : List Text}
    {tests : List (Text → Bool)} (compiled : texts.mapM language = some tests) :
    GhostReport.ofTexts? identity found texts language = some (.of identity found tests) := by
  cases named : identity.classes with
  | nil => simp [GhostReport.ofTexts?, GhostReport.of, named]
  | cons name rest => simp [GhostReport.ofTexts?, named, compiled]

theorem sound_of_readings {config : Config} {language : PatternLanguage} {tests : List (Text → Bool)} {readings : List Reading}
    (clean : Clean identity) (compiled : config.furtherConventions.mapM language = some tests)
    (genuine : Genuine identity settings readings) (linkOrder : List Text) :
    ∃ report, Report.ofReadings? identity linkOrder config readings language = some report ∧
      report.files = readings.map (·.file) ∧ Sound identity tests report := by
  simp only [Report.ofReadings?, ofTexts_eq identity _ compiled, Option.map_some]
  refine ⟨_, rfl, rfl, ⟨?_, ?_, ?_, List.filter_sublist, List.filter_sublist⟩⟩
  · intro name listed
    have defined := mem_defined clean genuine listed
    simp only [GhostReport.of, Report.found, List.mem_filter, Bool.and_eq_true, Bool.not_eq_true', List.contains_eq_mem,
      decide_eq_false_iff_not, listed, true_and, defined, not_exists, not_and, not_or]
    exact and_comm
  · intro file member sheet read rule inside text variant name listed shown
    obtain ⟨reading, present, rfl⟩ := List.mem_map.mp member
    obtain ⟨source, same⟩ := genuine reading present
    obtain ⟨found, hit, given⟩ := found_of_shows (same ▸ read) inside variant listed shown
    have defined : name ∈ definedClasses identity.classes (readings.flatMap (·.found)) :=
      (mem_defined clean genuine listed).mpr ⟨found, List.mem_flatMap.mpr ⟨_, member, same ▸ hit⟩, Or.inl given⟩
    simp [GhostReport.of, listed, defined]
  · intro name ghost defined
    simp only [GhostReport.of, List.mem_filter, Bool.and_eq_true, Bool.not_eq_true'] at ghost defined
    rw [defined.2] at ghost
    exact absurd ghost.2.1 (by simp)

end Reports

section Projects

/-- What is held under a key is the analysis of a stylesheet that has this key. -/
def Attested (key : CacheKey) (value : Option Reading) : Prop :=
  ∀ reading, value = some reading → ∃ origin : Source, origin.key key.identity key.settings = key ∧
    reading.file = origin.analyze key.identity key.settings

theorem attested_fresh (identity : Identity) (settings : FileSettings) (sources : List Source) :
    Answering Attested identity settings sources (readAllFresh identity settings sources) := by
  refine answering_fresh_iff.mpr fun place inside => ?_
  rintro _ ⟨⟩
  exact ⟨sources[place], rfl, rfl⟩

/-- A cache as analyses leave it, whatever they were about. -/
def Honest (cache : AnalysisCache) : Prop := AllHeld Attested cache

theorem honest_empty (capacity : Nat) : Honest { capacity } := fun _ _ member => nomatch member

/-- A file as an answer about a stylesheet: the analysis of one that shares its name and its digest. -/
def Answers (identity : Identity) (settings : FileSettings) (source : Source) (file : FileAnalysis) : Prop :=
  ∃ origin : Source, origin.name = source.name ∧ origin.digest = source.digest ∧ file = origin.analyze identity settings

/-- A cache that may be used holds nothing stale about the stylesheets, and none of them is taken for another. -/
def Settled (identity : Identity) (config : Config) (sources : List Source) (cache : Option AnalysisCache) : Prop :=
  config.useCache = true → ∀ held, cache = some held →
    Agreed sources ∧ DigestsApart sources ∧ Faithful identity config.toFileSettings sources held

/-- What a reading that answers for a stylesheet has to be: an honest answer, and one about the very stylesheet
if the cache is settled. -/
def Suited (identity : Identity) (config : Config) (sources : List Source) (cache : Option AnalysisCache) (key : CacheKey)
    (value : Option Reading) : Prop :=
  Attested key value ∧ (Settled identity config sources cache → Answered identity config.toFileSettings sources key value)

theorem answers_of_attested {identity : Identity} {settings : FileSettings} {sources : List Source} {readings : List Reading}
    (attested : Answering Attested identity settings sources readings) :
    List.Forall₂ (fun source reading => Answers identity settings source reading.file) sources readings := by
  refine attested.imp fun source reading own => ?_
  obtain ⟨origin, same, file⟩ := own reading rfl
  obtain ⟨name, digest⟩ := sourceKey_eq_iff.mp same
  exact ⟨origin, name, digest, file⟩

section Runs

variable (identity : Identity) {sources : List Source} (linkOrder : List Text) (config : Config) {cache : Option AnalysisCache}
  (honest : ∀ held, cache = some held → Honest held) (schedule : List (Fin sources.length)) (language : PatternLanguage)

include honest

/-- The analysis of a project with an honest cache leaves an honest cache. -/
theorem honest_left {left : AnalysisCache}
    (remains : (analyzeProjectBy identity sources linkOrder config cache schedule language).2 = some left) : Honest left := by
  cases allowed : config.useCache with
  | true => exact (analysis_holds (attested_fresh _ _ _) (fun _ => honest) schedule language).2 allowed left remains
  | false =>
    refine honest left ?_
    simpa [analyzeProjectBy, analyzeProject, allowed] using remains

/-- A report is made of readings that answer for the stylesheets one by one. -/
theorem readings_of_project : ∃ readings,
    (analyzeProjectBy identity sources linkOrder config cache schedule language).1 =
      Report.ofReadings? identity linkOrder config readings language ∧
    List.Forall₂ (fun source reading => Answers identity config.toFileSettings source reading.file) sources readings ∧
    (Settled identity config sources cache →
      readings.map (·.file) = sources.map (·.analyze identity config.toFileSettings)) := by
  have genuine := attested_fresh identity config.toFileSettings sources
  cases used : if config.useCache then cache else none with
  | none =>
    exact ⟨_, analysis_uncached used schedule language, answers_of_attested genuine,
      fun _ => fresh_files sources⟩
  | some known =>
    obtain ⟨allowed, given⟩ := Option.ite_none_right_eq_some.mp used
    have fresh : Answering (Suited identity config sources cache) identity config.toFileSettings sources
        (readAllFresh identity config.toFileSettings sources) := by
      refine answering_fresh_iff.mpr fun place inside => ⟨answering_fresh_iff.mp genuine place inside, fun settled => ?_⟩
      obtain ⟨agreed, apart, -⟩ := settled allowed known given
      exact answered_fresh agreed apart (List.getElem_mem inside) place
    have held : config.useCache = true → ∀ other, cache = some other → AllHeld (Suited identity config sources cache) other := by
      refine fun _ other same key value member => ⟨honest other same key value member, fun settled => ?_⟩
      obtain ⟨-, -, faithful⟩ := settled allowed other same
      exact faithful_iff.mp faithful key value member
    obtain ⟨⟨readings, answered, reported⟩, -⟩ := analysis_holds fresh held schedule language
    refine ⟨readings, reported, answers_of_attested (answered.imp fun _ _ own => own.1), fun settled => ?_⟩
    have reread := reread_of_answered (answered.imp fun _ _ own => own.2 settled)
    rw [files_readings reread, fresh_files]

end Runs

end Projects

/-- The report on a project is sound about the classes of its target, in whatever order its workers come and
whatever analyses the cache holds. Its files answer for the stylesheets one by one, and they are the analyses of
these very stylesheets unless the cache has been told of others under their keys. -/
theorem ghosts_sound (classes ids : List Text) (tag : Text) (attributes parts : List Text) (sources : List Source)
    (linkOrder : List Text) (config : Config) (cache : Option AnalysisCache)
    (honest : ∀ held, cache = some held → Honest held) (schedule : List (Fin sources.length))
    (language : PatternLanguage) {tests : List (Text → Bool)}
    (compiled : config.furtherConventions.mapM language = some tests) :
    let identity := Identity.gather classes ids tag attributes parts
    ∃ report, (analyzeProjectBy identity sources linkOrder config cache schedule language).1 = some report ∧
      Sound identity tests report ∧ List.Forall₂ (Answers identity config.toFileSettings) sources report.files ∧
      (Settled identity config sources cache →
        report.files = sources.map (·.analyze identity config.toFileSettings) ∧
        ∀ source ∈ sources, ∀ sheet, Analyzed config.toFileSettings source sheet → ∀ rule ∈ sheet.rules,
          ∀ text ∈ rule.variants, ∀ name ∈ identity.classes, Shows name text →
            name ∈ report.ghosts.defined ∧ name ∉ report.ghosts.ghosts) := by
  intro identity
  have clean : Clean identity := gather_clean classes ids tag attributes parts
  obtain ⟨readings, reported, answers, settled⟩ := readings_of_project identity linkOrder config honest schedule language
  have genuine : Genuine identity config.toFileSettings readings := by
    intro reading member
    obtain ⟨place, inside, rfl⟩ := List.mem_iff_getElem.mp member
    have present : place < sources.length := answers.length_eq ▸ inside
    obtain ⟨origin, -, -, file⟩ := answers.get present inside
    exact ⟨origin, file⟩
  obtain ⟨report, made, files, sound⟩ := sound_of_readings clean compiled genuine linkOrder
  refine ⟨report, reported.trans made, sound, ?_, fun own => ?_⟩
  · rw [files, List.forall₂_map_right_iff]
    exact answers
  · have same := files.trans (settled own)
    refine ⟨same, fun source member sheet analyzed => ?_⟩
    refine sound.shown _ (same ▸ List.mem_map_of_mem member) sheet ?_
    rw [analyze_of_analyzed analyzed]
    rfl

def menuTarget : Identity := .gather [" menu ".toList, "app-bar".toList, "gone".toList] [] [] [] []

def menuConfig : Config := { workers := 2, furtherConventions := ["^app-".toList] }

def menuSheet : Source := ⟨"a.css".toList, ".menu\x7bcolor:red\x7d".toList, .css⟩

def barSheet : Source := ⟨"b.css".toList, ".bar\x7bcolor:red\x7d".toList, .css⟩

/-- What an analysis of the first stylesheet leaves. -/
def menuCache : Option AnalysisCache := (analyzeProjectBy menuTarget [menuSheet] [] menuConfig (some { capacity := 2 }) []).2

theorem menuCache_settled : Settled menuTarget menuConfig [menuSheet, barSheet] menuCache := by
  have agreed : Agreed [menuSheet, barSheet] := by decide
  have apart : DigestsApart [menuSheet, barSheet] := by decide +kernel
  intro _ held given
  refine ⟨agreed, apart, faithful_iff.mpr ((analysis_holds ?_ ?_ [] _).2 rfl held given)⟩
  · refine answering_fresh_iff.mpr fun place inside => ?_
    have member : [menuSheet][place] ∈ [menuSheet, barSheet] := List.mem_append_left [barSheet] (List.getElem_mem inside)
    exact answered_fresh agreed apart member place
  · rintro _ _ ⟨⟩ _ _ member
    cases member

theorem menuSheet_shows : ∃ sheet, Analyzed menuConfig.toFileSettings menuSheet sheet ∧ ∃ rule ∈ sheet.rules, ∃ text ∈ rule.variants,
    Shows "menu".toList text := by
  have shown : ((Stylesheet.parse menuSheet.text menuSheet.name .css).toOption.any fun sheet => !sheet.isEmpty &&
      sheet.rules.any fun rule => rule.variants.any (hasMarked '.' "menu".toList)) = true := by decide +kernel
  cases parsed : Stylesheet.parse menuSheet.text menuSheet.name .css with
  | error fault =>
    rw [parsed] at shown
    cases shown
  | ok sheet =>
    rw [parsed] at shown
    simp only [Except.toOption, Option.any_some, Bool.and_eq_true, Bool.not_eq_true', List.any_eq_true] at shown
    obtain ⟨filled, rule, inside, text, variant, marked⟩ := shown
    exact ⟨sheet, ⟨by decide, rfl, parsed, filled⟩, rule, inside, text, variant, Or.inl marked⟩

/-- The cache of an earlier analysis, a pattern of the user's own and two workers that take their steps by turns. -/
theorem menu_ghosts_sound : (∀ held, menuCache = some held → Honest held) ∧
    Settled menuTarget menuConfig [menuSheet, barSheet] menuCache ∧
    ∃ tests report, menuConfig.furtherConventions.mapM Pattern.language = some tests ∧
      (analyzeProjectBy menuTarget [menuSheet, barSheet] [] menuConfig menuCache [1, 0, 1, 0] Pattern.language).1 = some report ∧
      report.files = [menuSheet, barSheet].map (·.analyze menuTarget menuConfig.toFileSettings) ∧
      "menu".toList ∈ report.ghosts.defined ∧ "menu".toList ∉ report.ghosts.ghosts := by
  have honest : ∀ held, menuCache = some held → Honest held := by
    have start : ∀ known, some ({ capacity := 2 } : AnalysisCache) = some known → Honest known := by
      rintro _ ⟨⟩
      exact honest_empty 2
    exact fun held given => honest_left menuTarget [] menuConfig start ([] : List (Fin [menuSheet].length)) Pattern.language given
  have compiled : (menuConfig.furtherConventions.mapM Pattern.language).isSome = true := by decide +kernel
  obtain ⟨tests, compiled⟩ := Option.isSome_iff_exists.mp compiled
  obtain ⟨report, made, -, -, settled⟩ := ghosts_sound [" menu ".toList, "app-bar".toList, "gone".toList] [] [] [] []
    [menuSheet, barSheet] [] menuConfig menuCache honest [1, 0, 1, 0] Pattern.language compiled
  obtain ⟨files, shown⟩ := settled menuCache_settled
  obtain ⟨sheet, analyzed, rule, inside, text, variant, shows⟩ := menuSheet_shows
  have listed : "menu".toList ∈ menuTarget.classes := by decide +kernel
  exact ⟨honest, menuCache_settled, tests, report, compiled, made, files,
    shown menuSheet List.mem_cons_self sheet analyzed rule inside text variant _ listed shows⟩

end CascadeLens.Proofs.GhostSoundness
