import ClassScript.Proofs.Faults
import ClassScript.Proofs.Sorting
import Mathlib.Data.List.Basic

/-!
# Batches of scripts

A batch goes through its scripts in the order in which they are finished. What ends it is the first
script whose fault is not reported. Without such a script, all failures are reported and all other
scripts are analyzed, whatever the order; their analyses are read back in the order of the scripts,
since they are kept by index. The faults that are not reported are the stray escapes in names: numbers
beyond the last code point in the name of a superclass or in a key.
-/

namespace ClassScript

namespace Batch

abbrev Outcome := ClassSource × Except Recognizer.Fault ClassAnalysis

def reportOf? (outcome : Outcome) : Option ErrorReport :=
  match outcome.2 with
  | .error (.failure failure) => some (.ofFailure outcome.1.path failure)
  | _ => none

/-- The fault of a script that is not reported. -/
def unreported? (outcome : Outcome) : Option Recognizer.Fault :=
  match outcome.2 with
  | .ok _ => none
  | .error (.failure _) => none
  | .error fault => some fault

def analysisOf? (outcome : Outcome) : Option (ClassSource × ClassAnalysis) :=
  match outcome.2 with
  | .ok analysis => some (outcome.1, analysis)
  | .error _ => none

def succeeded (results : List Outcome) : List (ClassSource × ClassAnalysis) :=
  results.filterMap analysisOf?

/-! ## Going through finished scripts -/

/-- What a finished script puts under its index. -/
def keyed? (finished : Nat × Outcome) : Option (Nat × ClassSource × ClassAnalysis) :=
  (analysisOf? finished.2).map (finished.1, ·)

/-- One script is noted: it cuts the batch short, or it is filed under its index or reported. -/
theorem note_eq (progress : Progress) (finished : Nat × Outcome) :
    note progress finished =
      match unreported? finished.2 with
      | some fault => .error (.escaped fault)
      | none => .ok {
          analyses := (keyed? finished).toList.foldl (fun t entry ↦ Table.put entry.1 entry.2 t)
            progress.analyses
          reports := progress.reports ++ (reportOf? finished.2).toList } := by
  obtain ⟨index, script, result⟩ := finished
  cases result with
  | ok analysis => simp [note, unreported?, reportOf?, keyed?, analysisOf?]
  | error fault =>
    cases fault with
    | failure failure => rfl
    | escape fault => rfl
    | transition transition => rfl

/-- A run over finished scripts stops at the first one that is neither analyzed nor reported, and else
it has filed and reported each of them. -/
theorem foldlM_note (finished : List (Nat × Outcome)) (progress : Progress) :
    finished.foldlM note progress =
      match (finished.map Prod.snd).findSome? unreported? with
      | some fault => .error (.escaped fault)
      | none => .ok {
          analyses := (finished.filterMap keyed?).foldl (fun t entry ↦ Table.put entry.1 entry.2 t)
            progress.analyses
          reports := progress.reports ++ (finished.map Prod.snd).filterMap reportOf? } := by
  induction finished generalizing progress with
  | nil => simp [pure, Except.pure]
  | cons first rest ih =>
    rw [List.foldlM_cons, note_eq, List.map_cons, List.findSome?_cons]
    cases unreported? first.2 with
    | some fault => rfl
    | none =>
      dsimp only [bind, Except.bind]
      rw [ih]
      cases hkeyed : keyed? first with
      | none =>
        cases hreport : reportOf? first.2 with
        | none => simp [hkeyed, hreport]
        | some report => simp [hkeyed, hreport]
      | some entry =>
        cases hreport : reportOf? first.2 with
        | none => simp [hkeyed, hreport]
        | some report => simp [hkeyed, hreport]

/-- The outcomes with their indices, in the order in which the scripts are finished. -/
def finishedAt (settings : Settings) (scripts : List ClassSource) (completion : List Nat) :
    List (Nat × Outcome) :=
  completion.filterMap fun index ↦ (outcomes settings scripts)[index]?.map (index, ·)

def finished (settings : Settings) (scripts : List ClassSource) (completion : List Nat) :
    List Outcome :=
  completion.filterMap fun index ↦ (outcomes settings scripts)[index]?

theorem map_snd_finishedAt (settings : Settings) (scripts : List ClassSource)
    (completion : List Nat) :
    (finishedAt settings scripts completion).map Prod.snd = finished settings scripts completion := by
  rw [finishedAt, finished, List.map_filterMap]
  apply List.filterMap_congr
  intro index _
  rw [Option.map_map]
  exact Option.map_id'

theorem filterMap_getElem?_range {α : Type} (xs : List α) :
    (List.range xs.length).filterMap (fun index ↦ xs[index]?) = xs := by
  have hmap : (List.range xs.length).map (fun index ↦ xs[index]?) = xs.map some := by
    apply List.ext_getElem
    · simp
    · intro index hindex _
      rw [List.length_map, List.length_range] at hindex
      simp [hindex]
  calc (List.range xs.length).filterMap (fun index ↦ xs[index]?)
      = ((List.range xs.length).map fun index ↦ xs[index]?).filterMap id := by
        rw [List.filterMap_map]
        rfl
    _ = xs := by rw [hmap, List.filterMap_map, Function.id_comp, List.filterMap_some]

/-- Indices increase where the scripts are finished in their order. -/
theorem pairwise_keyed (settings : Settings) (scripts : List ClassSource) :
    ((finishedAt settings scripts (List.range (outcomes settings scripts).length)).filterMap
      keyed?).Pairwise (·.1 < ·.1) := by
  rw [finishedAt, List.filterMap_filterMap, List.pairwise_filterMap]
  apply List.pairwise_lt_range.imp
  intro a b hab x hx y hy
  obtain ⟨_, ha, hx⟩ := Option.bind_eq_some_iff.1 hx
  obtain ⟨_, hb, hy⟩ := Option.bind_eq_some_iff.1 hy
  obtain ⟨_, _, rfl⟩ := Option.map_eq_some_iff.1 ha
  obtain ⟨_, _, rfl⟩ := Option.map_eq_some_iff.1 hb
  obtain ⟨_, _, rfl⟩ := Option.map_eq_some_iff.1 hx
  obtain ⟨_, _, rfl⟩ := Option.map_eq_some_iff.1 hy
  exact hab

theorem map_snd_keyed (entries : List (Nat × Outcome)) :
    (entries.filterMap keyed?).map Prod.snd = succeeded (entries.map Prod.snd) := by
  rw [succeeded, List.filterMap_map, List.map_filterMap]
  apply List.filterMap_congr
  intro entry _
  rw [keyed?, Option.map_map]
  exact Option.map_id'

section Completion

variable (settings : Settings) {scripts : List ClassSource} {completion : List Nat}
  (h : completion.Perm (List.range scripts.length))

include h

theorem perm_range_outcomes :
    completion.Perm (List.range (outcomes settings scripts).length) := by
  rwa [outcomes, List.length_map]

/-- In any order, each script is finished once. -/
theorem finished_perm :
    (finished settings scripts completion).Perm (outcomes settings scripts) := by
  have hperm := (perm_range_outcomes settings h).filterMap fun index ↦
    (outcomes settings scripts)[index]?
  rwa [filterMap_getElem?_range] at hperm

/-- The analyses are read back in the order of the scripts, whatever the order in which they are put
under their indices. -/
theorem inOrder_finishedAt (reports : List ErrorReport) :
    Progress.inOrder {
        analyses := ((finishedAt settings scripts completion).filterMap keyed?).foldl
          (fun t entry ↦ Table.put entry.1 entry.2 t) []
        reports } =
      succeeded (outcomes settings scripts) := by
  have hincreasing := pairwise_keyed settings scripts
  have hperm : ((finishedAt settings scripts completion).filterMap keyed?).Perm
      ((finishedAt settings scripts (List.range (outcomes settings scripts).length)).filterMap
        keyed?) :=
    ((perm_range_outcomes settings h).filterMap _).filterMap _
  have hnodup : (((finishedAt settings scripts completion).filterMap keyed?).map Prod.fst).Nodup :=
    (hperm.map Prod.fst).nodup_iff.2 (List.pairwise_map.2 (hincreasing.imp ne_of_lt))
  have hle (a b : Nat × ClassSource × ClassAnalysis) : decide (a.1 ≤ b.1) = true ↔ a.1 ≤ b.1 :=
    decide_eq_true_iff
  have hsorted := pairwise_mergeSort_key Prod.fst hle
    ((finishedAt settings scripts completion).filterMap keyed?)
  have hsort := List.mergeSort_perm ((finishedAt settings scripts completion).filterMap keyed?)
    fun a b ↦ decide (a.1 ≤ b.1)
  rw [Progress.inOrder, Table.foldl_put_eq_latest, Table.latest_eq_self hnodup,
    eq_of_perm_of_pairwise_key Prod.fst (hsort.trans hperm) ((hsort.map Prod.fst).nodup_iff.2 hnodup)
      hsorted (hincreasing.imp le_of_lt),
    map_snd_keyed, map_snd_finishedAt, finished, filterMap_getElem?_range]

/-- A batch ends with the first fault that is not reported; without one, it gives a result. -/
theorem analyzeInOrder_eq {workers : Int} (hworkers : 0 < workers) :
    analyzeInOrder settings workers scripts completion =
      match (finished settings scripts completion).findSome? unreported? with
      | some fault => .error (.escaped fault)
      | none =>
        .ok (.assemble (succeeded (outcomes settings scripts)),
          ErrorReport.sorted ((finished settings scripts completion).filterMap reportOf?)) := by
  unfold analyzeInOrder
  rw [if_neg (by omega)]
  show ((finishedAt settings scripts completion).foldlM note {} >>= _) = _
  rw [foldlM_note, map_snd_finishedAt]
  cases (finished settings scripts completion).findSome? unreported? with
  | some fault => rfl
  | none =>
    dsimp only [bind, Except.bind, pure, Except.pure]
    rw [inOrder_finishedAt settings h, List.nil_append]

end Completion

end Batch

/-! ## Filed analyses -/

/-- Filing groups the analyses by module, and in a module the last one of each class is kept. -/
theorem ArchiveAnalysis.foldl_file_eq (results : List (ClassSource × ClassAnalysis)) :
    results.foldl file [] =
      Table.grouped (results.map fun result ↦
        (result.1.moduleName, result.1.className, result.2)) := by
  rw [← Table.foldl_alter_put_eq_grouped, List.foldl_map]
  rfl

namespace Batch

/-- An archive holds, under the names of a module and a class, the analysis of the last script with these
names that was analyzed. -/
theorem mem_assemble {results : List (ClassSource × ClassAnalysis)} {moduleName className : Text}
    {analysis : ClassAnalysis} :
    (∃ classes, (moduleName, classes) ∈ ArchiveAnalysis.assemble results ∧
        (className, analysis) ∈ classes) ↔
      (Table.valuesOf className (Table.valuesOf moduleName (results.map fun result ↦
        (result.1.moduleName, result.1.className, result.2)))).getLast? = some analysis := by
  unfold ArchiveAnalysis.assemble ArchiveAnalysis.byName
  rw [ArchiveAnalysis.foldl_file_eq]
  constructor
  · rintro ⟨classes, hclasses, hanalysis⟩
    obtain ⟨⟨_, bucket⟩, hbucket, heq⟩ := List.mem_map.1 (List.mem_mergeSort.1 hclasses)
    cases heq
    obtain ⟨first, others, hvalues, rfl⟩ := Table.mem_gather.1 hbucket
    rw [hvalues]
    exact Table.mem_latest.1 (List.mem_mergeSort.1 hanalysis)
  · intro hlast
    cases hvalues : Table.valuesOf moduleName (results.map fun result ↦
        (result.1.moduleName, result.1.className, result.2)) with
    | nil =>
      rw [hvalues] at hlast
      cases hlast
    | cons first others =>
      rw [hvalues] at hlast
      refine ⟨(Table.latest (first :: others)).mergeSort fun a b ↦ a.1.le b.1,
        List.mem_mergeSort.2 (List.mem_map.2 ⟨(moduleName, Table.latest (first :: others)), ?_, rfl⟩),
        List.mem_mergeSort.2 (Table.mem_latest.2 hlast)⟩
      exact Table.mem_gather.2 ⟨first, others, hvalues, rfl⟩

/-- Whatever is analyzed has an entry in the archive. -/
theorem exists_mem_assemble {results : List (ClassSource × ClassAnalysis)}
    {result : ClassSource × ClassAnalysis} (h : result ∈ results) :
    ∃ latest ∈ results, latest.1.moduleName = result.1.moduleName ∧
      latest.1.className = result.1.className ∧
      ∃ classes, (result.1.moduleName, classes) ∈ ArchiveAnalysis.assemble results ∧
        (result.1.className, latest.2) ∈ classes := by
  have hmem : result.2 ∈ Table.valuesOf result.1.className (Table.valuesOf result.1.moduleName
      (results.map fun result ↦ (result.1.moduleName, result.1.className, result.2))) :=
    Table.mem_valuesOf.2 (Table.mem_valuesOf.2 (List.mem_map.2 ⟨result, h, rfl⟩))
  obtain ⟨analysis, hlast⟩ :=
    Option.ne_none_iff_exists'.1 (mt List.getLast?_eq_none_iff.1 (List.ne_nil_of_mem hmem))
  obtain ⟨latest, hlatest, heq⟩ := List.mem_map.1
    (Table.mem_valuesOf.1 (Table.mem_valuesOf.1 (List.mem_of_getLast? hlast)))
  simp only [Prod.mk.injEq] at heq
  obtain ⟨hmodule, hclass, rfl⟩ := heq
  exact ⟨latest, hlatest, hmodule, hclass, mem_assemble.2 hlast⟩

end Batch

/-! ## What becomes of a batch -/

namespace ClassSource

def analysis (settings : Settings) (script : ClassSource) : Except Recognizer.Fault ClassAnalysis :=
  analyzeScript settings script.moduleName script.className script.source

def report? (settings : Settings) (script : ClassSource) : Option ErrorReport :=
  Batch.reportOf? (script, script.analysis settings)

/-- The first thing that is wrong with a script is a name with a stray escape. -/
def HasStrayName (script : ClassSource) : Prop :=
  ∃ escape, script.firstFault? = some (.escape escape)

/-- A script is analyzed, or its failure is reported, or it has a stray name. -/
theorem analysis_cases (settings : Settings) (script : ClassSource) :
    (∃ analysis, script.analysis settings = .ok analysis) ∨
      (∃ failure, script.analysis settings = .error (.failure failure)) ∨
      ∃ escape, script.analysis settings = .error (.escape escape) ∧
        script.firstFault? = some (.escape escape) := by
  cases hanalysis : script.analysis settings with
  | ok analysis => exact .inl ⟨analysis, rfl⟩
  | error fault =>
    have hfirst := analyzeScript_eq_error_iff.1 hanalysis
    rcases failure_or_stray hfirst with ⟨failure, rfl⟩ | ⟨escape, _, _, rfl, _⟩
    · exact .inr (.inl ⟨failure, rfl⟩)
    · exact .inr (.inr ⟨escape, rfl, hfirst⟩)

/-- Only a name with a stray escape cuts a batch short. -/
theorem unreported?_eq_some {settings : Settings} {script : ClassSource} {fault : Recognizer.Fault}
    (h : Batch.unreported? (script, script.analysis settings) = some fault) :
    ∃ escape, fault = .escape escape ∧ script.analysis settings = .error (.escape escape) ∧
      script.HasStrayName := by
  rcases script.analysis_cases settings with
    ⟨analysis, hanalysis⟩ | ⟨failure, hanalysis⟩ | ⟨escape, hanalysis, hfirst⟩
  · rw [hanalysis] at h
    cases h
  · rw [hanalysis] at h
    cases h
  · rw [hanalysis] at h
    cases h
    exact ⟨escape, rfl, hanalysis, escape, hfirst⟩

/-- Every name with a stray escape cuts a batch short. -/
theorem unreported?_of_hasStrayName (settings : Settings) {script : ClassSource}
    (h : script.HasStrayName) :
    (Batch.unreported? (script, script.analysis settings)).isSome := by
  obtain ⟨escape, hfirst⟩ := h
  have hanalysis : script.analysis settings = .error (.escape escape) :=
    analyzeScript_eq_error_iff.2 hfirst
  rw [hanalysis]
  rfl

end ClassSource

namespace Batch

/-- What a batch makes of its scripts. -/
structure Settles (settings : Settings) (scripts : List ClassSource)
    (result : Except BatchFault (ArchiveAnalysis × List ErrorReport)) : Prop where
  /-- There is a result unless a script has a stray name. -/
  returns : (∃ archive reports, result = .ok (archive, reports)) ↔
    ∀ script ∈ scripts, ¬script.HasStrayName
  /-- A name is stray because of a number beyond the last code point. -/
  stray : ∀ script ∈ scripts, script.HasStrayName → ∃ shape literal,
    script.shape = .ok shape ∧ Recognizer.Names shape literal ∧ literal.HasStrayEscape
  /-- In the result, there is one report on each script that is not analyzed. -/
  reported : ∀ archive reports, result = .ok (archive, reports) →
    reports.Perm (scripts.filterMap (ClassSource.report? settings)) ∧
      ∀ script ∈ scripts, (∃ analysis, script.analysis settings = .ok analysis) ∨
        (script.report? settings).isSome
  /-- The archive holds each class that is analyzed, as it is in some script. -/
  analyzed : ∀ archive reports, result = .ok (archive, reports) → ∀ script ∈ scripts, ∀ own,
    script.analysis settings = .ok own → ∃ latest ∈ scripts, ∃ analysis,
      latest.moduleName = script.moduleName ∧ latest.className = script.className ∧
        latest.analysis settings = .ok analysis ∧
        ∃ classes, (script.moduleName, classes) ∈ archive ∧ (script.className, analysis) ∈ classes
  /-- Without a result, all is lost to the fault of one script. -/
  lost : ∀ fault, result = .error fault → ∃ script ∈ scripts, ∃ escape,
    script.analysis settings = .error (.escape escape) ∧ fault = .escaped (.escape escape)

section Settles

variable {settings : Settings} {workers : Int} {scripts : List ClassSource} {completion : List Nat}

theorem mem_finished (h : completion.Perm (List.range scripts.length)) {outcome : Outcome} :
    outcome ∈ finished settings scripts completion ↔
      ∃ script ∈ scripts, (script, script.analysis settings) = outcome :=
  (finished_perm settings h).mem_iff.trans List.mem_map

theorem mem_succeeded {script : ClassSource} {analysis : ClassAnalysis} :
    (script, analysis) ∈ succeeded (outcomes settings scripts) ↔
      script ∈ scripts ∧ script.analysis settings = .ok analysis := by
  unfold succeeded outcomes
  rw [List.filterMap_map, List.mem_filterMap]
  constructor
  · rintro ⟨other, hother, heq⟩
    dsimp only [Function.comp, analysisOf?] at heq
    split at heq
    · next own hown =>
      cases heq
      exact ⟨hother, hown⟩
    · cases heq
  · rintro ⟨hscript, hanalysis⟩
    refine ⟨script, hscript, ?_⟩
    dsimp only [Function.comp, analysisOf?]
    rw [← ClassSource.analysis, hanalysis]

/-- The order of completion does not change which reports there are. -/
theorem reports_perm (h : completion.Perm (List.range scripts.length)) :
    (ErrorReport.sorted ((finished settings scripts completion).filterMap reportOf?)).Perm
      (scripts.filterMap (ClassSource.report? settings)) := by
  have hsorted := List.mergeSort_perm
    ((finished settings scripts completion).filterMap reportOf?) fun a b ↦ a.path.le b.path
  have hreports := (finished_perm settings h).filterMap reportOf?
  rw [outcomes, List.filterMap_map] at hreports
  exact hsorted.trans hreports

theorem stray_of_hasStrayName {script : ClassSource} (h : script.HasStrayName) :
    ∃ shape literal, script.shape = .ok shape ∧ Recognizer.Names shape literal ∧
      literal.HasStrayEscape := by
  obtain ⟨escape, hfirst⟩ := h
  rcases ClassSource.failure_or_stray hfirst with ⟨_, hfailure⟩ | ⟨_, shape, literal, _, hstray⟩
  · cases hfailure
  · exact ⟨shape, literal, hstray⟩

/-- A batch in which each script is analyzed or reported settles with all of them. -/
theorem settles_of_reported (hcompletion : completion.Perm (List.range scripts.length))
    (h : ∀ script ∈ scripts, unreported? (script, script.analysis settings) = none) :
    Settles settings scripts (.ok (.assemble (succeeded (outcomes settings scripts)),
      ErrorReport.sorted ((finished settings scripts completion).filterMap reportOf?))) := by
  have hstray : ∀ script ∈ scripts, ¬script.HasStrayName := by
    intro script hscript hstray
    have hsome := ClassSource.unreported?_of_hasStrayName settings hstray
    rw [h script hscript] at hsome
    cases hsome
  constructor
  case returns => exact ⟨fun _ ↦ hstray, fun _ ↦ ⟨_, _, rfl⟩⟩
  case stray => exact fun _ _ ↦ stray_of_hasStrayName
  case reported =>
    intro archive reports hok
    cases hok
    refine ⟨reports_perm hcompletion, ?_⟩
    intro script hscript
    rcases script.analysis_cases settings with
      hanalysis | ⟨failure, hanalysis⟩ | ⟨escape, _, hfirst⟩
    · exact .inl hanalysis
    · right
      rw [ClassSource.report?, hanalysis]
      rfl
    · exact absurd ⟨escape, hfirst⟩ (hstray script hscript)
  case analyzed =>
    intro archive reports hok script hscript own hown
    cases hok
    obtain ⟨⟨latest, analysis⟩, hlatest, hmodule, hclass, hclasses⟩ :=
      exists_mem_assemble (mem_succeeded.2 ⟨hscript, hown⟩)
    obtain ⟨hmem, hanalysis⟩ := mem_succeeded.1 hlatest
    exact ⟨latest, hmem, analysis, hmodule, hclass, hanalysis, hclasses⟩
  case lost =>
    intro fault hlost
    cases hlost

/-- A batch with a script that is neither analyzed nor reported settles with a fault. -/
theorem settles_of_unreported {script : ClassSource} {fault : Recognizer.Fault}
    (hscript : script ∈ scripts)
    (h : unreported? (script, script.analysis settings) = some fault) :
    Settles settings scripts (.error (.escaped fault)) := by
  obtain ⟨escape, rfl, hanalysis, hstray⟩ := ClassSource.unreported?_eq_some h
  constructor
  case returns =>
    constructor
    · rintro ⟨archive, reports, hok⟩
      cases hok
    · intro hnone
      exact absurd hstray (hnone script hscript)
  case stray => exact fun _ _ ↦ stray_of_hasStrayName
  case reported =>
    intro archive reports hok
    cases hok
  case analyzed =>
    intro archive reports hok
    cases hok
  case lost =>
    intro fault hlost
    cases hlost
    exact ⟨script, hscript, escape, hanalysis, rfl⟩

/-- Whatever the order in which its scripts are finished, a batch gives a result just when no script has
a stray name. Then all failures are reported and all other scripts are analyzed; otherwise the fault of
a script with a stray name is all that there is. -/
theorem analyzeInOrder_settles (hworkers : 0 < workers)
    (hcompletion : completion.Perm (List.range scripts.length)) :
    Settles settings scripts (analyzeInOrder settings workers scripts completion) := by
  rw [analyzeInOrder_eq settings hcompletion hworkers]
  cases hfault : (finished settings scripts completion).findSome? unreported? with
  | none =>
    apply settles_of_reported hcompletion
    intro script hscript
    apply List.findSome?_eq_none_iff.1 hfault
    exact (mem_finished hcompletion).2 ⟨script, hscript, rfl⟩
  | some fault =>
    obtain ⟨outcome, houtcome, hunreported⟩ := List.exists_of_findSome?_eq_some hfault
    obtain ⟨script, hscript, rfl⟩ := (mem_finished hcompletion).1 houtcome
    exact settles_of_unreported hscript hunreported

def strayScript : ClassSource :=
  ⟨"m", "A", "'\\u{110000}'.subclass(function (I) {});".toList, "a.js"⟩

def emptyScript : ClassSource := ⟨"m", "B", [], "b.js"⟩

def plainScript : ClassSource := ⟨"m", "C", "function (I) {}".toList, "c.js"⟩

set_option maxRecDepth 100000 in
/-- A stray name in one script costs the batch its result; a script without a class is reported, and the
other one is analyzed. -/
theorem analyzeInOrder_strayScript :
    analyzeInOrder .default 1 [strayScript, plainScript] [1, 0] =
        .error (.escaped (.escape .outOfRange)) ∧
      ∃ archive, analyzeInOrder .default 1 [emptyScript, plainScript] [1, 0] =
        .ok (archive, [.ofFailure "b.js" ⟨.badScript, "m", "B"⟩]) := by
  have hstray : unreported? (strayScript, strayScript.analysis .default) =
      some (.escape .outOfRange) := by
    decide +kernel
  have hempty : unreported? (emptyScript, emptyScript.analysis .default) = none := by
    decide +kernel
  have hplain : unreported? (plainScript, plainScript.analysis .default) = none := by
    decide +kernel
  constructor
  · have hsettles : Settles .default [strayScript, plainScript]
        (analyzeInOrder .default 1 [strayScript, plainScript] [1, 0]) :=
      analyzeInOrder_settles (by decide) (by decide)
    cases hresult : analyzeInOrder .default 1 [strayScript, plainScript] [1, 0] with
    | ok result =>
      obtain ⟨_, _, _, hname⟩ := ClassSource.unreported?_eq_some hstray
      exact absurd hname (hsettles.returns.1 ⟨_, _, hresult⟩ _ List.mem_cons_self)
    | error fault =>
      obtain ⟨script, hscript, escape, hanalysis, rfl⟩ := hsettles.lost fault hresult
      rcases List.mem_pair.1 hscript with rfl | rfl
      · rw [hanalysis] at hstray
        cases hstray
        rfl
      · rw [hanalysis] at hplain
        cases hplain
  · have hsettles : Settles .default [emptyScript, plainScript]
        (analyzeInOrder .default 1 [emptyScript, plainScript] [1, 0]) :=
      analyzeInOrder_settles (by decide) (by decide)
    have hnames : ∀ script ∈ [emptyScript, plainScript], ¬script.HasStrayName := by
      intro script hscript hname
      have hsome := ClassSource.unreported?_of_hasStrayName .default hname
      rcases List.mem_pair.1 hscript with rfl | rfl
      · rw [hempty] at hsome
        cases hsome
      · rw [hplain] at hsome
        cases hsome
    obtain ⟨archive, reports, hresult⟩ := hsettles.returns.2 hnames
    have hreports : [emptyScript, plainScript].filterMap (ClassSource.report? .default) =
        [.ofFailure "b.js" ⟨.badScript, "m", "B"⟩] := by
      decide +kernel
    have hperm := (hsettles.reported archive reports hresult).1
    rw [hreports, List.perm_singleton] at hperm
    subst hperm
    exact ⟨archive, hresult⟩

end Settles

end Batch

end ClassScript
