import ClassScript.Proofs.Unpacked

/-!
# Reports in different orders of completion

The order in which the scripts of a batch are finished shows in one place only: reports with the same
path stand in that order. So two orders of completion give the same reports just when they finish the
scripts of each path so that the reports on them come alike. All orders give the same reports just when
the scripts of a path that fail have one report among them; scripts that fail differently can be
finished in either order, and the reports on them change places.
-/

namespace ClassScript

namespace Batch

def inTurn (scripts : List ClassSource) (completion : List Nat) : List ClassSource :=
  completion.filterMap fun index ↦ scripts[index]?

/-- The reports on the scripts of a path, in the order in which they are finished. -/
def reportsAt (settings : Settings) (scripts : List ClassSource) (completion : List Nat) (path : Text) :
    List ErrorReport :=
  (inTurn scripts completion).filterMap fun script ↦
    if script.path = path then script.report? settings else none

def reports? (settings : Settings) (workers : Int) (scripts : List ClassSource)
    (completion : List Nat) : Option (List ErrorReport) :=
  (analyzeInOrder settings workers scripts completion).toOption.map Prod.snd

section Turns

variable (settings : Settings) (scripts : List ClassSource) (completion : List Nat)

theorem finished_eq_map :
    finished settings scripts completion =
      (inTurn scripts completion).map fun script ↦ (script, script.analysis settings) := by
  rw [finished, inTurn, List.map_filterMap]
  congr 1
  funext index
  exact List.getElem?_map

theorem filterMap_reportOf?_finished :
    (finished settings scripts completion).filterMap reportOf? =
      (inTurn scripts completion).filterMap (ClassSource.report? settings) := by
  rw [finished_eq_map, List.filterMap_map]
  rfl

/-- The reports with a path are those on the scripts with that path. -/
theorem filter_reports (path : Text) :
    ((inTurn scripts completion).filterMap (ClassSource.report? settings)).filter
        (fun report ↦ report.path = path) =
      reportsAt settings scripts completion path := by
  rw [List.filter_filterMap, reportsAt]
  congr 1
  funext script
  cases hreport : script.report? settings with
  | none => simp
  | some report => simp [Option.filter, ClassSource.path_of_report? hreport]

end Turns

/-- The reports with a path are sorted into one place and keep their order there. -/
theorem filter_sorted (reports : List ErrorReport) (path : Text) :
    (ErrorReport.sorted reports).filter (fun report ↦ report.path = path) =
      reports.filter fun report ↦ report.path = path :=
  filter_mergeSort_key ErrorReport.path (fun _ _ ↦ Text.le_iff) reports path

/-- Sorted lists of reports are equal just when the reports of each path come in the same order. -/
theorem sorted_eq_sorted_iff_filter {reports reports' : List ErrorReport} :
    ErrorReport.sorted reports = ErrorReport.sorted reports' ↔
      ∀ path, (reports.filter fun report ↦ report.path = path) =
        reports'.filter fun report ↦ report.path = path := by
  constructor
  · intro heq path
    rw [← filter_sorted, heq, filter_sorted]
  · intro hpaths
    apply eq_of_filter_key ErrorReport.path (pairwise_sorted reports) (pairwise_sorted reports')
    intro path
    calc (ErrorReport.sorted reports).filter (fun report ↦ report.path = path)
        = reports.filter fun report ↦ report.path = path := filter_sorted reports path
      _ = reports'.filter fun report ↦ report.path = path := hpaths path
      _ = (ErrorReport.sorted reports').filter fun report ↦ report.path = path :=
          (filter_sorted reports' path).symm

/-! ## One order of completion -/

section Completion

variable {settings : Settings} {workers : Int} {scripts : List ClassSource} {completion : List Nat}

/-- Whether a batch is cut short does not depend on the order of completion. -/
theorem findSome?_unreported_eq_none_iff (hcompletion : completion.Perm (List.range scripts.length)) :
    (finished settings scripts completion).findSome? unreported? = none ↔
      ∀ script ∈ scripts, ¬script.HasStrayName := by
  rw [List.findSome?_eq_none_iff]
  constructor
  · intro hnone script hscript hstray
    have hreported := hnone _ ((mem_finished hcompletion).2 ⟨script, hscript, rfl⟩)
    have hsome := ClassSource.unreported?_of_hasStrayName settings hstray
    rw [hreported] at hsome
    cases hsome
  · intro hstray outcome houtcome
    obtain ⟨script, hscript, rfl⟩ := (mem_finished hcompletion).1 houtcome
    apply Option.not_isSome_iff_eq_none.1
    exact fun hsome ↦ hstray script hscript (isSome_unreported?_iff.1 hsome)

/-- What a batch gives in some order of completion. -/
theorem toOption_analyzeInOrder_eq (hworkers : 0 < workers)
    (hcompletion : completion.Perm (List.range scripts.length))
    (hstray : ∀ script ∈ scripts, ¬script.HasStrayName) :
    (analyzeInOrder settings workers scripts completion).toOption =
      some (.assemble (succeeded (outcomes settings scripts)),
        ErrorReport.sorted
          ((inTurn scripts completion).filterMap (ClassSource.report? settings))) := by
  rw [analyzeInOrder_eq settings hcompletion hworkers, (findSome?_unreported_eq_none_iff hcompletion).2 hstray,
    filterMap_reportOf?_finished]
  rfl

theorem toOption_analyzeInOrder_of_stray (hworkers : 0 < workers)
    (hcompletion : completion.Perm (List.range scripts.length))
    (hstray : ∃ script ∈ scripts, script.HasStrayName) :
    (analyzeInOrder settings workers scripts completion).toOption = none := by
  rw [analyzeInOrder_eq settings hcompletion hworkers]
  cases hfault : (finished settings scripts completion).findSome? unreported? with
  | some fault => rfl
  | none =>
    obtain ⟨script, hscript, hname⟩ := hstray
    exact absurd hname ((findSome?_unreported_eq_none_iff hcompletion).1 hfault script hscript)

end Completion

/-! ## Any two orders of completion -/

/-- Scripts of one path that fail have the same report. -/
def OneReportPerPath (settings : Settings) (scripts : List ClassSource) : Prop :=
  ∀ a ∈ scripts, ∀ b ∈ scripts, a.path = b.path →
    ∀ report ∈ a.report? settings, ∀ report' ∈ b.report? settings, report = report'

/-- How what a batch gives depends on the order in which its scripts are finished. -/
structure DependsOnTies (settings : Settings) (workers : Int) (scripts : List ClassSource) : Prop where
  /-- Whether there is a result does not depend on the order, and neither does its archive. -/
  archive : ∃ archive?, ∀ completion : List Nat, completion.Perm (List.range scripts.length) →
    (analyzeInOrder settings workers scripts completion).toOption.map Prod.fst = archive?
  /-- Reports come by path, and those on the scripts of a path in the order of completion. -/
  byPath : ∀ completion : List Nat, completion.Perm (List.range scripts.length) →
    ∀ reports ∈ reports? settings workers scripts completion,
      reports.Pairwise (fun a b ↦ a.path ≤ b.path) ∧
        ∀ path, (reports.filter fun report ↦ report.path = path) =
          reportsAt settings scripts completion path
  /-- Two orders give the same reports just when they finish the scripts of each path alike. -/
  same : (∀ script ∈ scripts, ¬script.HasStrayName) → ∀ completion completion' : List Nat,
    completion.Perm (List.range scripts.length) → completion'.Perm (List.range scripts.length) →
      (reports? settings workers scripts completion = reports? settings workers scripts completion' ↔
        ∀ path, reportsAt settings scripts completion path =
          reportsAt settings scripts completion' path)
  /-- All orders give the same reports just when there are none, or one for each path. -/
  independent : (∀ completion completion' : List Nat,
      completion.Perm (List.range scripts.length) → completion'.Perm (List.range scripts.length) →
        reports? settings workers scripts completion =
          reports? settings workers scripts completion') ↔
    (∃ script ∈ scripts, script.HasStrayName) ∨ OneReportPerPath settings scripts

section Orders

variable {settings : Settings} {workers : Int} {scripts : List ClassSource}
  {completion completion' : List Nat}

theorem reports?_eq_reports?_iff (hworkers : 0 < workers)
    (hcompletion : completion.Perm (List.range scripts.length))
    (hcompletion' : completion'.Perm (List.range scripts.length))
    (hstray : ∀ script ∈ scripts, ¬script.HasStrayName) :
    reports? settings workers scripts completion = reports? settings workers scripts completion' ↔
      ∀ path, reportsAt settings scripts completion path =
        reportsAt settings scripts completion' path := by
  rw [reports?, reports?, toOption_analyzeInOrder_eq hworkers hcompletion hstray,
    toOption_analyzeInOrder_eq hworkers hcompletion' hstray]
  simp only [Option.map_some, Option.some.injEq, sorted_eq_sorted_iff_filter, filter_reports]

/-- If the scripts of a path have one report, the reports with the path are copies of it. -/
theorem reportsAt_eq_of_oneReportPerPath (h : OneReportPerPath settings scripts)
    (hcompletion : completion.Perm (List.range scripts.length))
    (hcompletion' : completion'.Perm (List.range scripts.length)) (path : Text) :
    reportsAt settings scripts completion path = reportsAt settings scripts completion' path := by
  have hperm : (reportsAt settings scripts completion path).Perm
      (reportsAt settings scripts completion' path) :=
    ((hcompletion.trans hcompletion'.symm).filterMap _).filterMap _
  have hall : ∀ report ∈ reportsAt settings scripts completion path,
      ∀ report' ∈ reportsAt settings scripts completion path, report = report' := by
    intro report hreport report' hreport'
    obtain ⟨a, ha, hfound⟩ := List.mem_filterMap.1 hreport
    obtain ⟨b, hb, hfound'⟩ := List.mem_filterMap.1 hreport'
    obtain ⟨hpath, hfound⟩ := Option.ite_none_right_eq_some.1 hfound
    obtain ⟨hpath', hfound'⟩ := Option.ite_none_right_eq_some.1 hfound'
    obtain ⟨index, _, ha⟩ := List.mem_filterMap.1 ha
    obtain ⟨index', _, hb⟩ := List.mem_filterMap.1 hb
    exact h a (List.mem_of_getElem? ha) b (List.mem_of_getElem? hb) (hpath.trans hpath'.symm) report
      hfound report' hfound'
  have htrivial (reports : List ErrorReport) : reports.Pairwise fun _ _ ↦ True :=
    List.pairwise_of_forall fun _ _ ↦ trivial
  apply List.Perm.eq_of_pairwise _ (htrivial _) (htrivial _) hperm
  intro report report' hreport hreport' _ _
  exact hall report hreport report' (hperm.mem_iff.2 hreport')

theorem reportsAt_cons {index : Nat} {script : ClassSource} {report : ErrorReport}
    (hscript : scripts[index]? = some script) (hreport : script.report? settings = some report) :
    reportsAt settings scripts (index :: completion) script.path =
      report :: reportsAt settings scripts completion script.path := by
  have hturn : inTurn scripts (index :: completion) = script :: inTurn scripts completion :=
    List.filterMap_cons_some hscript
  rw [reportsAt, hturn, List.filterMap_cons, if_pos rfl, hreport]
  rfl

/-- Any two scripts can be finished first. -/
theorem exists_completion {i j : Nat} (hi : i < scripts.length) (hj : j < scripts.length)
    (hne : i ≠ j) :
    ∃ rest : List Nat, (i :: j :: rest).Perm (List.range scripts.length) := by
  have hfirst := List.perm_cons_erase (List.mem_range.2 hi)
  have hsecond := List.perm_cons_erase ((List.mem_erase_of_ne hne.symm).2 (List.mem_range.2 hj))
  exact ⟨_, (hsecond.symm.cons i).trans hfirst.symm⟩

/-- If the order does not show, then scripts of one path that fail have the same report: they can be
the first to be finished, one way or the other. -/
theorem oneReportPerPath_of_same
    (h : ∀ completion completion' : List Nat,
      completion.Perm (List.range scripts.length) → completion'.Perm (List.range scripts.length) →
        ∀ path, reportsAt settings scripts completion path =
          reportsAt settings scripts completion' path) :
    OneReportPerPath settings scripts := by
  intro a ha b hb hpath report hreport report' hreport'
  obtain ⟨i, hi⟩ := List.mem_iff_getElem?.1 ha
  obtain ⟨j, hj⟩ := List.mem_iff_getElem?.1 hb
  by_cases hne : i = j
  · rw [hne, hj] at hi
    cases hi
    exact Option.some.inj (hreport.symm.trans hreport')
  · obtain ⟨rest, hrest⟩ := exists_completion (List.getElem?_eq_some_iff.1 hi).1
      (List.getElem?_eq_some_iff.1 hj).1 hne
    have hreports := h _ _ hrest ((List.Perm.swap i j rest).trans hrest) a.path
    rw [reportsAt_cons hi hreport, hpath, reportsAt_cons hj hreport', reportsAt_cons hj hreport']
      at hreports
    exact (List.cons.inj hreports).1

/-- The order in which the scripts of a batch are finished shows in the order of reports with the same
path and nowhere else. It does not show just when the batch has no result or one report for each path. -/
theorem analyzeInOrder_dependsOnTies (hworkers : 0 < workers) :
    DependsOnTies settings workers scripts := by
  constructor
  case archive =>
    by_cases hstray : ∀ script ∈ scripts, ¬script.HasStrayName
    · refine ⟨some (.assemble (succeeded (outcomes settings scripts))), ?_⟩
      intro completion hcompletion
      rw [toOption_analyzeInOrder_eq hworkers hcompletion hstray, Option.map_some]
    · refine ⟨none, ?_⟩
      intro completion hcompletion
      rw [toOption_analyzeInOrder_of_stray hworkers hcompletion (by simpa using hstray),
        Option.map_none]
  case byPath =>
    intro completion hcompletion reports hreports
    by_cases hstray : ∀ script ∈ scripts, ¬script.HasStrayName
    · rw [reports?, toOption_analyzeInOrder_eq hworkers hcompletion hstray] at hreports
      cases hreports
      refine ⟨pairwise_sorted _, ?_⟩
      intro path
      rw [filter_sorted, filter_reports]
    · rw [reports?, toOption_analyzeInOrder_of_stray hworkers hcompletion (by simpa using hstray)]
        at hreports
      cases hreports
  case same =>
    intro hstray completion completion' hcompletion hcompletion'
    exact reports?_eq_reports?_iff hworkers hcompletion hcompletion' hstray
  case independent =>
    by_cases hstray : ∃ script ∈ scripts, script.HasStrayName
    · refine iff_of_true ?_ (.inl hstray)
      intro completion completion' hcompletion hcompletion'
      rw [reports?, reports?, toOption_analyzeInOrder_of_stray hworkers hcompletion hstray,
        toOption_analyzeInOrder_of_stray hworkers hcompletion' hstray]
    · have hnone : ∀ script ∈ scripts, ¬script.HasStrayName := fun script hscript hname ↦
        hstray ⟨script, hscript, hname⟩
      rw [or_iff_right hstray]
      constructor
      · intro hsame
        apply oneReportPerPath_of_same
        intro completion completion' hcompletion hcompletion'
        exact (reports?_eq_reports?_iff hworkers hcompletion hcompletion' hnone).1
          (hsame completion completion' hcompletion hcompletion')
      · intro hone completion completion' hcompletion hcompletion'
        exact (reports?_eq_reports?_iff hworkers hcompletion hcompletion' hnone).2
          (reportsAt_eq_of_oneReportPerPath hone hcompletion hcompletion')

/-- Two scripts of one path that fail differently. -/
def rivalScripts : List ClassSource :=
  [⟨"m.m", "A", "a; b".toList, "m.m/_/A.js"⟩, ⟨"m.m", "A", [], "m.m/_/A.js"⟩]

def rivalReports : List ErrorReport :=
  [.ofFailure "m.m/_/A.js" ⟨.tooManyStatements, "m.m", "A"⟩,
    .ofFailure "m.m/_/A.js" ⟨.badScript, "m.m", "A"⟩]

set_option maxRecDepth 100000 in
/-- The reports on the two scripts change places with the scripts. -/
theorem analyzeInOrder_rivalScripts :
    DependsOnTies .default 1 rivalScripts ∧
      reports? .default 1 rivalScripts [0, 1] = some rivalReports ∧
      reports? .default 1 rivalScripts [1, 0] = some rivalReports.reverse := by
  have hdepends : DependsOnTies .default 1 rivalScripts := analyzeInOrder_dependsOnTies (by decide)
  have hreported : ∀ script ∈ rivalScripts,
      unreported? (script, script.analysis .default) = none := by
    decide +kernel
  have hstray : ∀ script ∈ rivalScripts, ¬script.HasStrayName := by
    intro script hscript hname
    have hsome := ClassSource.unreported?_of_hasStrayName .default hname
    rw [hreported script hscript] at hsome
    cases hsome
  have hsorted {completion : List Nat} (hcompletion : completion.Perm (List.range 2))
      {reports : List ErrorReport}
      (hreports : (inTurn rivalScripts completion).filterMap (ClassSource.report? .default) = reports)
      (hpaths : reports.Pairwise fun a b ↦ a.path.le b.path = true) :
      reports? .default 1 rivalScripts completion = some reports := by
    rw [reports?, toOption_analyzeInOrder_eq (by decide) hcompletion hstray, hreports,
      ErrorReport.sorted, List.mergeSort_of_pairwise hpaths, Option.map_some]
  refine ⟨hdepends, hsorted (by decide) ?_ (by decide), hsorted (by decide) ?_ (by decide)⟩
  · decide +kernel
  · decide +kernel

end Orders

end Batch

end ClassScript
