import ClassScript.Proofs.Saving
import ClassScript.Proofs.Schedules
import ClassScript.Proofs.Shown

/-!
# Exit codes

A run has the exit code 2 just when something is wrong with the arguments, the source or the output;
otherwise 1 if some script is not analyzed, and 0 if all are. But some faults leave it without an exit
code: a path that is too long to be looked up; once the arguments are accepted, a pattern that makes no
sense, in the home or among the patterns to exclude; once all scripts are read, a script with a stray
name; and once all scripts are analyzed or reported, a text in the tables that the console refuses or an
output whose path cannot be handed over.
-/

namespace ClassScript

/-! ## What becomes of the scripts -/

/-- A script without stray names is analyzed or reported. -/
theorem ClassSource.report?_eq_none_iff {settings : Settings} {script : ClassSource}
    (h : ¬script.HasStrayName) :
    script.report? settings = none ↔ ∃ analysis, script.analysis settings = .ok analysis := by
  rw [ClassSource.report?]
  rcases script.analysis_cases settings with
    ⟨analysis, hanalysis⟩ | ⟨failure, hanalysis⟩ | ⟨escape, _, hfirst⟩
  · simp [hanalysis, Batch.reportOf?]
  · simp [hanalysis, Batch.reportOf?]
  · exact absurd ⟨escape, hfirst⟩ h

namespace Batch

variable (settings : Settings) {workers : Int} {scripts : List ClassSource}

theorem analyze_of_stray (hworkers : 0 < workers) (h : ∃ script ∈ scripts, script.HasStrayName) :
    ∃ fault, analyze settings workers scripts = .error fault := by
  have hnone : (analyze settings workers scripts).toOption = none :=
    toOption_analyzeInOrder_of_stray hworkers (.refl _) h
  cases hresult : analyze settings workers scripts with
  | error fault => exact ⟨fault, rfl⟩
  | ok result =>
    rw [hresult] at hnone
    cases hnone

/-- Without stray names a batch ends, and it has no reports just when all scripts are analyzed. -/
theorem analyze_of_not_stray (hworkers : 0 < workers) (h : ∀ script ∈ scripts, ¬script.HasStrayName) :
    ∃ modules reports, analyze settings workers scripts = .ok (modules, reports) ∧
      (reports.isEmpty = true ↔
        ∀ script ∈ scripts, ∃ analysis, script.analysis settings = .ok analysis) := by
  have hsome : (analyze settings workers scripts).toOption = some _ :=
    toOption_analyzeInOrder_eq hworkers (.refl _) h
  cases hresult : analyze settings workers scripts with
  | error fault =>
    rw [hresult] at hsome
    cases hsome
  | ok result =>
    rw [hresult] at hsome
    obtain rfl := Option.some.inj hsome
    refine ⟨_, _, rfl, ?_⟩
    rw [inTurn, filterMap_getElem?_range, ErrorReport.sorted, List.isEmpty_iff_length_eq_zero,
      List.length_mergeSort, List.length_eq_zero_iff, List.filterMap_eq_nil_iff]
    apply forall₂_congr
    intro script hscript
    exact ClassSource.report?_eq_none_iff (h script hscript)

end Batch

namespace CommandLine

open Source (Contents contents? Unreadable IsRead)

/-- The arguments can be read, and it can be said what is at the path. -/
structure Understood (tree : FileTree) (arguments : List Text) (given : Arguments) : Prop where
  read : Arguments.read? arguments = some given
  short : tree.isTooLong given.path = false

/-- Besides, the arguments make sense, and there is a source at the path. -/
structure Accepted (tree : FileTree) (arguments : List Text) (given : Arguments) (settings : Settings)
    (contents : Contents) : Prop extends Understood tree arguments given where
  valid : Settings.make given.classHome given.marker given.exclude = .ok settings
  workers : 0 < given.workers
  source : contents? tree given.path = some contents

/-- Besides, all that is selected can be read. -/
structure Ready (tree : FileTree) (arguments : List Text) (given : Arguments) (settings : Settings)
    (selector : Selector) (contents : Contents) : Prop
    extends Accepted tree arguments given settings contents where
  selects : Selector.ofSettings settings = .ok selector
  readable : ∀ entry ∈ contents, ¬Unreadable selector entry

/-- Besides, the scripts make up an archive. -/
structure Analyzed (tree : FileTree) (arguments : List Text) (given : Arguments) (settings : Settings)
    (selector : Selector) (contents : Contents) (modules : ArchiveAnalysis) : Prop
    extends Ready tree arguments given settings selector contents where
  archive : ∃ scripts reports, Source.scripts selector contents = .ok scripts ∧
    Batch.analyze settings given.workers scripts = .ok (modules, reports)

/-- The analysis is to be written to a file. -/
def WritesTo (given : Arguments) (output : Text) : Prop :=
  given.format = .json ∧ given.output = some output ∧ output ≠ []

/-- Something is wrong with the arguments, the source or the output. -/
inductive Refused (tree : FileTree) (arguments : List Text) : Prop where
  | arguments (h : Arguments.read? arguments = none)
  | path {given : Arguments} (hunderstood : Understood tree arguments given)
    (h : (tree.locate? given.path).bind tree.entry? = none)
  | home {given : Arguments} (hunderstood : Understood tree arguments given)
    (h : given.classHome = [] ∨ CodePoint.ofChar '/' ∈ given.classHome)
  | marker {given : Arguments} (hunderstood : Understood tree arguments given)
    (h : ∀ c, given.marker = [c] → c.isBlank = true)
  | workers {given : Arguments} (hunderstood : Understood tree arguments given)
    (h : given.workers ≤ 0)
  | source {given : Arguments} (hunderstood : Understood tree arguments given)
    (h : contents? tree given.path = none)
  | script {given : Arguments} {settings : Settings} {selector : Selector} {contents : Contents}
    (haccepted : Accepted tree arguments given settings contents)
    (hselects : Selector.ofSettings settings = .ok selector)
    (h : ∃ entry ∈ contents, Unreadable selector entry)
  | output {given : Arguments} {settings : Settings} {selector : Selector} {contents : Contents}
    (hready : Ready tree arguments given settings selector contents)
    (hnames : ∀ script, IsRead selector contents script → ¬script.HasStrayName)
    {output : Text} (houtput : WritesTo given output) (h : ∃ made, tree.saving output = .failed made)

/-- A fault is met that nothing catches. -/
inductive Escapes (console : Console) (tree : FileTree) (arguments : List Text) : Prop where
  | path {given : Arguments} (hread : Arguments.read? arguments = some given)
    (h : tree.isTooLong given.path = true)
  | pattern {given : Arguments} {settings : Settings} {contents : Contents}
    (haccepted : Accepted tree arguments given settings contents)
    (h : ∃ pattern ∈ Selector.includePattern given.classHome :: given.exclude, Path.Malformed pattern)
  | name {given : Arguments} {settings : Settings} {selector : Selector} {contents : Contents}
    (hready : Ready tree arguments given settings selector contents)
    (h : ∃ script, IsRead selector contents script ∧ script.HasStrayName)
  | table {given : Arguments} {settings : Settings} {selector : Selector} {contents : Contents}
    {modules : ArchiveAnalysis}
    (hanalyzed : Analyzed tree arguments given settings selector contents modules)
    (hformat : given.format = .table)
    (h : ∃ t, Report.Shows (shownPlace tree given) modules t ∧ console.Refuses t)
  | output {given : Arguments} {settings : Settings} {selector : Selector} {contents : Contents}
    (hready : Ready tree arguments given settings selector contents)
    (hnames : ∀ script, IsRead selector contents script → ¬script.HasStrayName)
    {output : Text} (houtput : WritesTo given output)
    (h : ∃ path, tree.saving output = .unencodable path)

def SomeFails (tree : FileTree) (arguments : List Text) : Prop :=
  ∃ given settings selector contents script,
    Ready tree arguments given settings selector contents ∧ IsRead selector contents script ∧
      ∀ analysis, script.analysis settings ≠ .ok analysis

def ExitsWith (code : Nat) (result : Except Crash Outcome) : Prop :=
  ∃ outcome, result = .ok outcome ∧ outcome.exit = code

theorem ExitsWith.unique {code code' : Nat} {result : Except Crash Outcome} (h : ExitsWith code result)
    (h' : ExitsWith code' result) : code = code' := by
  obtain ⟨outcome, hresult, hcode⟩ := h
  obtain ⟨outcome', hresult', hcode'⟩ := h'
  cases hresult.symm.trans hresult'
  exact hcode.symm.trans hcode'

theorem ExitsWith.not_error {code : Nat} {result : Except Crash Outcome} (h : ExitsWith code result) :
    ¬∃ crash, result = .error crash := by
  rintro ⟨crash, hcrash⟩
  obtain ⟨outcome, hresult, _⟩ := h
  cases hresult.symm.trans hcrash

section Runs

variable {console : Console} {tree : FileTree} {arguments : List Text} {given : Arguments}
  {settings : Settings} {selector : Selector} {contents : Contents} {modules : ArchiveAnalysis}
  {reports : List ErrorReport}

/-- Settings are accepted just when the home is one name and the marker one code point that is not
blank. -/
theorem exists_make_iff :
    (∃ settings, Settings.make given.classHome given.marker given.exclude = .ok settings) ↔
      ¬(given.classHome = [] ∨ CodePoint.ofChar '/' ∈ given.classHome) ∧
        ¬∀ c, given.marker = [c] → c.isBlank = true := by
  rw [Settings.make, not_or]
  by_cases hhome : given.classHome ≠ [] ∧ CodePoint.ofChar '/' ∉ given.classHome
  · rw [dif_pos hhome, and_iff_right hhome]
    rcases given.marker with _ | ⟨c, _ | ⟨d, rest⟩⟩
    · simp
    · by_cases hc : c.isBlank = false
      · simp [hc]
      · simp [hc]
    · simp
  · rw [dif_neg hhome]
    exact ⟨nofun, fun h ↦ absurd h.1 hhome⟩

theorem eq_of_make {home marker : Text} {exclude : List Text}
    (h : Settings.make home marker exclude = .ok settings) :
    settings.classHome = home ∧ settings.exclude = exclude := by
  unfold Settings.make at h
  split at h
  · split at h
    · split at h
      · cases h
        exact ⟨rfl, rfl⟩
      · cases h
    · cases h
  · cases h

/-- A run without accepted arguments crashes or is refused. -/
theorem refused_of_not_accepted (hescapes : ¬Escapes console tree arguments)
    (h : ¬∃ given settings contents, Accepted tree arguments given settings contents) :
    Refused tree arguments := by
  cases hread : Arguments.read? arguments with
  | none => exact .arguments hread
  | some given =>
    by_contra hrefused
    have hshort : tree.isTooLong given.path = false :=
      Bool.eq_false_iff.2 fun hlong ↦ hescapes (.path hread hlong)
    have hunderstood : Understood tree arguments given := ⟨hread, hshort⟩
    obtain ⟨settings, hvalid⟩ := exists_make_iff.2 ⟨fun hhome ↦ hrefused (.home hunderstood hhome),
      fun hmarker ↦ hrefused (.marker hunderstood hmarker)⟩
    have hworkers : 0 < given.workers := by
      by_contra hworkers
      exact hrefused (.workers hunderstood (not_lt.1 hworkers))
    cases hsource : contents? tree given.path with
    | none => exact hrefused (.source hunderstood hsource)
    | some contents => exact h ⟨given, settings, contents, hunderstood, hvalid, hworkers, hsource⟩

/-- Arguments that are understood and not accepted are refused. -/
theorem Understood.exitsWith (hunderstood : Understood tree arguments given)
    (h : ∀ settings contents, ¬Accepted tree arguments given settings contents) :
    ExitsWith 2 (run console tree arguments) := by
  rw [run, hunderstood.read]
  dsimp only
  rw [analyze, if_neg (Bool.eq_false_iff.1 hunderstood.short)]
  by_cases hpath : ((tree.locate? given.path).bind tree.entry?).isNone
  · rw [if_pos hpath]
    exact ⟨_, rfl, rfl⟩
  · rw [if_neg hpath]
    cases hvalid : Settings.make given.classHome given.marker given.exclude with
    | error fault => exact ⟨_, rfl, rfl⟩
    | ok settings =>
      by_cases hworkers : given.workers ≤ 0
      · exact ⟨_, if_pos hworkers, rfl⟩
      · cases hsource : contents? tree given.path with
        | some contents =>
          exact absurd ⟨hunderstood, hvalid, not_le.1 hworkers, hsource⟩ (h settings contents)
        | none =>
          dsimp only
          rw [if_neg hworkers, Source.read_eq, hsource]
          exact ⟨_, rfl, rfl⟩

/-- What is left of a run when its arguments are accepted: reading, analyzing and publishing. -/
theorem Accepted.run_eq (h : Accepted tree arguments given settings contents) :
    run console tree arguments =
      match Selector.ofSettings settings with
      | .error fault => .error (.pattern fault)
      | .ok selector =>
        match Source.scripts selector contents with
        | .error fault => .ok (refused fault.message)
        | .ok scripts =>
          match Batch.analyze settings given.workers scripts with
          | .error fault => .error (.batch fault)
          | .ok (modules, reports) => publish console tree given modules reports := by
  have hentry : ¬((tree.locate? given.path).bind tree.entry?).isNone := by
    intro hnone
    cases h.source.symm.trans (Source.contents?_of_missing (Option.isNone_iff_eq_none.1 hnone))
  rw [run, h.read]
  dsimp only
  rw [analyze, if_neg (Bool.eq_false_iff.1 h.short), if_neg hentry, h.valid]
  dsimp only
  rw [if_neg (not_le.2 h.workers), Source.read_eq, h.source]
  cases hselects : Selector.ofSettings settings with
  | error fault => simp [Source.selector, hselects, Except.mapError, bind, Except.bind]
  | ok selector =>
    simp only [Source.selector, hselects, Except.mapError, bind, Except.bind]
    cases hscripts : Source.scripts selector contents with
    | ok scripts => rfl
    | error fault =>
      cases fault with
      | pattern fault => exact absurd hscripts (Source.scripts_ne_pattern h.source)
      | _ => rfl

/-! ### Publishing -/

theorem publish_of_table (h : given.format = .table) :
    publish console tree given modules reports =
      match Report.tables console (shownPlace tree given) modules with
      | .ok stdout => .ok {
          exit := if reports.isEmpty then 0 else 1, stderr := reports.flatMap errorLine, stdout }
      | .error message => .error (.table message) := by
  cases given
  cases h
  rfl

theorem publish_of_writesTo {output : Text} (h : WritesTo given output) :
    publish console tree given modules reports =
      save tree output (if reports.isEmpty then 0 else 1) (reports.flatMap errorLine)
        (Text.ofString (Report.payload modules reports).indented) := by
  obtain ⟨hformat, houtput, hne⟩ := h
  obtain ⟨c, rest, rfl⟩ := List.exists_cons_of_ne_nil hne
  simp only [publish, hformat, houtput]

/-- Printing the payload does not fail. -/
theorem publish_of_prints (hformat : given.format = .json) (h : ∀ output, ¬WritesTo given output) :
    ExitsWith (if reports.isEmpty then 0 else 1) (publish console tree given modules reports) := by
  rcases houtput : given.output with _ | ⟨_ | ⟨c, rest⟩⟩
  · simp only [publish, hformat, houtput]
    exact ⟨_, rfl, rfl⟩
  · simp only [publish, hformat, houtput]
    exact ⟨_, rfl, rfl⟩
  · exact absurd ⟨hformat, houtput, List.cons_ne_nil c rest⟩ (h _)

/-- An analysis is published unless the console or the output is in the way. -/
theorem exitsWith_publish
    (htable : given.format = .table →
      ∀ t, Report.Shows (shownPlace tree given) modules t → ¬console.Refuses t)
    (houtput : ∀ output, WritesTo given output →
      ∃ made place, tree.saving output = .written made place) :
    ExitsWith (if reports.isEmpty then 0 else 1) (publish console tree given modules reports) := by
  cases hformat : given.format with
  | table =>
    obtain ⟨shown, hshown⟩ := Report.exists_tables_iff.2 (htable hformat)
    rw [publish_of_table hformat, hshown]
    exact ⟨_, rfl, rfl⟩
  | json =>
    by_cases hwrites : ∃ output, WritesTo given output
    · obtain ⟨output, hwrites⟩ := hwrites
      obtain ⟨made, place, hsaving⟩ := houtput output hwrites
      rw [publish_of_writesTo hwrites, save, hsaving]
      exact ⟨_, rfl, rfl⟩
    · exact publish_of_prints hformat (not_exists.1 hwrites)

/-! ### Runs that get so far -/

/-- When all can be read, the run is decided by the batch. -/
theorem Ready.run_eq (h : Ready tree arguments given settings selector contents) :
    ∃ scripts, Source.scripts selector contents = .ok scripts ∧
      (∀ script, script ∈ scripts ↔ IsRead selector contents script) ∧
      run console tree arguments =
        match Batch.analyze settings given.workers scripts with
        | .error fault => .error (.batch fault)
        | .ok (modules, reports) => publish console tree given modules reports := by
  obtain ⟨scripts, hscripts⟩ := Source.exists_scripts_iff.2 h.readable
  refine ⟨scripts, hscripts, fun script ↦ Source.mem_scripts hscripts, ?_⟩
  rw [h.toAccepted.run_eq, h.selects]
  dsimp only
  rw [hscripts]

/-- When all is read and no name is stray, the result of the batch is published. -/
theorem Ready.run_of_not_stray (h : Ready tree arguments given settings selector contents)
    (hnames : ∀ script, IsRead selector contents script → ¬script.HasStrayName) :
    ∃ modules reports, Analyzed tree arguments given settings selector contents modules ∧
      run console tree arguments = publish console tree given modules reports ∧
      (reports.isEmpty = true ↔ ∀ script, IsRead selector contents script →
        ∃ analysis, script.analysis settings = .ok analysis) := by
  obtain ⟨scripts, hscripts, hmem, hrun⟩ := h.run_eq
  simp only [← hmem] at hnames ⊢
  obtain ⟨modules, reports, hresult, hreports⟩ := Batch.analyze_of_not_stray settings h.workers hnames
  exact ⟨modules, reports, ⟨h, scripts, reports, hscripts, hresult⟩, by rw [hrun, hresult], hreports⟩

theorem Analyzed.run_eq (h : Analyzed tree arguments given settings selector contents modules) :
    ∃ reports, run console tree arguments = publish console tree given modules reports := by
  obtain ⟨scripts, reports, hscripts, hresult⟩ := h.archive
  refine ⟨reports, ?_⟩
  rw [h.toAccepted.run_eq, h.selects]
  dsimp only
  rw [hscripts]
  dsimp only
  rw [hresult]

/-- Every way to crash leaves a run without an outcome. -/
theorem Escapes.run_eq_error (h : Escapes console tree arguments) :
    ∃ crash, run console tree arguments = .error crash := by
  cases h with
  | @path given hread hlong =>
    refine ⟨.path (FileTree.shown given.path), ?_⟩
    rw [run, hread]
    exact if_pos hlong
  | @pattern given settings contents haccepted hpattern =>
    cases hselects : Selector.ofSettings settings with
    | error fault => exact ⟨.pattern fault, by rw [haccepted.run_eq, hselects]⟩
    | ok selector =>
      obtain ⟨pattern, hmem, hmalformed⟩ := hpattern
      obtain ⟨hhome, hexclude⟩ := eq_of_make haccepted.valid
      rw [← hhome, ← hexclude] at hmem
      exact absurd hmalformed (Selector.exists_ofSettings_iff.1 ⟨selector, hselects⟩ pattern hmem)
  | name hready hstray =>
    obtain ⟨scripts, _, hmem, hrun⟩ := hready.run_eq
    obtain ⟨script, hscript, hname⟩ := hstray
    obtain ⟨fault, hfault⟩ := Batch.analyze_of_stray _ hready.workers
      ⟨script, (hmem script).2 hscript, hname⟩
    exact ⟨.batch fault, by rw [hrun, hfault]⟩
  | @table given settings selector contents modules hanalyzed hformat hrefuses =>
    obtain ⟨reports, hrun⟩ := hanalyzed.run_eq
    rw [hrun, publish_of_table hformat]
    cases htables : Report.tables console (shownPlace tree given) modules with
    | error message => exact ⟨_, rfl⟩
    | ok shown =>
      obtain ⟨t, hshows, hrefuses⟩ := hrefuses
      exact absurd hrefuses (Report.exists_tables_iff.1 ⟨shown, htables⟩ t hshows)
  | output hready hnames houtput hsaving =>
    obtain ⟨modules, reports, _, hrun, _⟩ := hready.run_of_not_stray hnames
    obtain ⟨path, hsaving⟩ := hsaving
    exact ⟨.output path, by rw [hrun, publish_of_writesTo houtput, save, hsaving]⟩

/-- Every refusal ends with exit code 2. -/
theorem Refused.exitsWith (h : Refused tree arguments) :
    ExitsWith 2 (run console tree arguments) := by
  cases h with
  | arguments h => exact ⟨{ exit := 2 }, by rw [run, h], rfl⟩
  | path hunderstood h =>
    apply hunderstood.exitsWith
    intro settings contents haccepted
    cases haccepted.source.symm.trans (Source.contents?_of_missing h)
  | home hunderstood h =>
    apply hunderstood.exitsWith
    intro settings contents haccepted
    exact (exists_make_iff.1 ⟨settings, haccepted.valid⟩).1 h
  | marker hunderstood h =>
    apply hunderstood.exitsWith
    intro settings contents haccepted
    exact (exists_make_iff.1 ⟨settings, haccepted.valid⟩).2 h
  | workers hunderstood h =>
    apply hunderstood.exitsWith
    intro settings contents haccepted
    exact not_lt.2 h haccepted.workers
  | source hunderstood h =>
    apply hunderstood.exitsWith
    intro settings contents haccepted
    cases haccepted.source.symm.trans h
  | @script given settings selector contents haccepted hselects h =>
    cases hscripts : Source.scripts selector contents with
    | error fault =>
      refine ⟨refused fault.message, ?_, rfl⟩
      rw [haccepted.run_eq, hselects]
      dsimp only
      rw [hscripts]
    | ok scripts =>
      obtain ⟨entry, hentry, hunreadable⟩ := h
      exact absurd hunreadable (Source.exists_scripts_iff.1 ⟨scripts, hscripts⟩ entry hentry)
  | output hready hnames houtput hsaving =>
    obtain ⟨modules, reports, _, hrun, _⟩ := hready.run_of_not_stray hnames
    obtain ⟨made, hsaving⟩ := hsaving
    rw [hrun, publish_of_writesTo houtput, save, hsaving]
    exact ⟨_, rfl, rfl⟩

/-- A run that neither crashes nor is refused reads all of its scripts. -/
theorem exists_ready (hescapes : ¬Escapes console tree arguments)
    (hrefused : ¬Refused tree arguments) :
    ∃ given settings selector contents, Ready tree arguments given settings selector contents := by
  obtain ⟨given, settings, contents, haccepted⟩ :
      ∃ given settings contents, Accepted tree arguments given settings contents := by
    by_contra hnone
    exact hrefused (refused_of_not_accepted hescapes hnone)
  obtain ⟨hhome, hexclude⟩ := eq_of_make haccepted.valid
  obtain ⟨selector, hselects⟩ := Selector.exists_ofSettings_iff.2 fun pattern hpattern hmalformed ↦
    hescapes (.pattern haccepted ⟨pattern, hhome ▸ hexclude ▸ hpattern, hmalformed⟩)
  exact ⟨given, settings, selector, contents, haccepted, hselects, fun entry hentry hunreadable ↦
    hrefused (.script haccepted hselects ⟨entry, hentry, hunreadable⟩)⟩

/-- Such a run ends with exit code 0 if all scripts are analyzed, and with 1 if not. -/
theorem Ready.exitsWith (h : Ready tree arguments given settings selector contents)
    (hescapes : ¬Escapes console tree arguments) (hrefused : ¬Refused tree arguments) :
    ∃ code, ExitsWith code (run console tree arguments) ∧ (code = 0 ∨ code = 1) ∧
      (code = 0 ↔ ∀ script, IsRead selector contents script →
        ∃ analysis, script.analysis settings = .ok analysis) := by
  have hnames : ∀ script, IsRead selector contents script → ¬script.HasStrayName :=
    fun script hscript hname ↦ hescapes (.name h ⟨script, hscript, hname⟩)
  obtain ⟨modules, reports, hanalyzed, hrun, hreports⟩ := h.run_of_not_stray hnames
  have htable (hformat : given.format = .table) (t : Text)
      (hshows : Report.Shows (shownPlace tree given) modules t) : ¬console.Refuses t :=
    fun hrefuses ↦ hescapes (.table hanalyzed hformat ⟨t, hshows, hrefuses⟩)
  have houtput (output : Text) (hwrites : WritesTo given output) :
      ∃ made place, tree.saving output = .written made place := by
    cases hsaving : tree.saving output with
    | written made place => exact ⟨made, place, rfl⟩
    | failed made => exact absurd (.output h hnames hwrites ⟨made, hsaving⟩) hrefused
    | unencodable path => exact absurd (.output h hnames hwrites ⟨path, hsaving⟩) hescapes
  refine ⟨_, hrun ▸ exitsWith_publish htable houtput, ?_⟩
  rw [← hreports]
  cases reports.isEmpty <;> simp

theorem exitsWith_one (hescapes : ¬Escapes console tree arguments)
    (hrefused : ¬Refused tree arguments) (hfails : SomeFails tree arguments) :
    ExitsWith 1 (run console tree arguments) := by
  obtain ⟨given, settings, selector, contents, script, hready, hscript, hfailed⟩ := hfails
  obtain ⟨code, hexits, rfl | rfl, hzero⟩ := hready.exitsWith hescapes hrefused
  · obtain ⟨analysis, hanalysis⟩ := hzero.1 rfl script hscript
    exact absurd hanalysis (hfailed analysis)
  · exact hexits

theorem exitsWith_zero (hescapes : ¬Escapes console tree arguments)
    (hrefused : ¬Refused tree arguments) (hfails : ¬SomeFails tree arguments) :
    ExitsWith 0 (run console tree arguments) := by
  obtain ⟨given, settings, selector, contents, hready⟩ := exists_ready hescapes hrefused
  obtain ⟨code, hexits, _, hzero⟩ := hready.exitsWith hescapes hrefused
  rwa [hzero.2] at hexits
  intro script hscript
  by_contra hfailed
  exact hfails ⟨given, settings, selector, contents, script, hready, hscript, not_exists.1 hfailed⟩

/-- A run that is to write its analysis, and is not refused, leaves it where the output says. -/
theorem Ready.locate?_output (h : Ready tree arguments given settings selector contents)
    (hrooted : tree.Rooted) {output : Text} (houtput : WritesTo given output) {outcome : Outcome}
    (hrun : run console tree arguments = .ok outcome) (hexit : outcome.exit ≠ 2) :
    ∃ scripts modules reports place, Source.scripts selector contents = .ok scripts ∧
      Batch.analyze settings given.workers scripts = .ok (modules, reports) ∧
      (outcome.applyTo tree).locate? output = some place ∧
      FileTree.entry? (outcome.applyTo tree) place =
        some (.file (Report.payload modules reports).indented.toUTF8 none) := by
  obtain ⟨scripts, hscripts, _, hbatch⟩ := h.run_eq
  rw [hbatch] at hrun
  cases hresult : Batch.analyze settings given.workers scripts with
  | error fault =>
    rw [hresult] at hrun
    cases hrun
  | ok result =>
    obtain ⟨modules, reports⟩ := result
    rw [hresult] at hrun
    dsimp only at hrun
    rw [publish_of_writesTo houtput] at hrun
    obtain ⟨place, hfound⟩ := locate?_of_save hrooted hrun hexit
    exact ⟨scripts, modules, reports, place, hscripts, hresult, hfound⟩

end Runs

/-- How a run ends. -/
structure Ends (console : Console) (tree : FileTree) (arguments : List Text)
    (result : Except Crash Outcome) : Prop where
  /-- There is no exit code when a fault escapes. -/
  escapes : (∃ crash, result = .error crash) ↔ Escapes console tree arguments
  /-- The code is 2 when the arguments, the source or the output are refused. -/
  two : ExitsWith 2 result ↔ Refused tree arguments
  /-- Otherwise the code tells whether all scripts are analyzed. -/
  one : ExitsWith 1 result ↔
    ¬Escapes console tree arguments ∧ ¬Refused tree arguments ∧ SomeFails tree arguments
  zero : ExitsWith 0 result ↔
    ¬Escapes console tree arguments ∧ ¬Refused tree arguments ∧ ¬SomeFails tree arguments

/-- How every command line ends on every file tree and every console. -/
theorem run_ends (console : Console) (tree : FileTree) (arguments : List Text) :
    Ends console tree arguments (run console tree arguments) := by
  have hcaught {code : Nat} (h : ExitsWith code (run console tree arguments)) :
      ¬Escapes console tree arguments :=
    fun hescapes ↦ h.not_error hescapes.run_eq_error
  have haccepted {code : Nat} (h : ExitsWith code (run console tree arguments)) (hcode : code ≠ 2) :
      ¬Refused tree arguments :=
    fun hrefused ↦ hcode (h.unique hrefused.exitsWith)
  constructor
  case escapes =>
    refine ⟨fun herror ↦ ?_, Escapes.run_eq_error⟩
    by_contra hescapes
    by_cases hrefused : Refused tree arguments
    · exact hrefused.exitsWith.not_error herror
    · by_cases hfails : SomeFails tree arguments
      · exact (exitsWith_one hescapes hrefused hfails).not_error herror
      · exact (exitsWith_zero hescapes hrefused hfails).not_error herror
  case two =>
    refine ⟨fun htwo ↦ ?_, Refused.exitsWith⟩
    by_contra hrefused
    by_cases hfails : SomeFails tree arguments
    · cases htwo.unique (exitsWith_one (hcaught htwo) hrefused hfails)
    · cases htwo.unique (exitsWith_zero (hcaught htwo) hrefused hfails)
  case one =>
    refine ⟨fun hone ↦ ⟨hcaught hone, haccepted hone (by decide), ?_⟩, fun ⟨h, h', hfails⟩ ↦
      exitsWith_one h h' hfails⟩
    by_contra hfails
    cases hone.unique (exitsWith_zero (hcaught hone) (haccepted hone (by decide)) hfails)
  case zero =>
    refine ⟨fun hzero ↦ ⟨hcaught hzero, haccepted hzero (by decide), ?_⟩, fun ⟨h, h', hfails⟩ ↦
      exitsWith_zero h h' hfails⟩
    intro hfails
    cases hzero.unique (exitsWith_one (hcaught hzero) (haccepted hzero (by decide)) hfails)

def oneScript (source : String) : FileTree where
  current := []
  entries := [([Text.ofString "modules"], .directory),
    ([Text.ofString "modules", Text.ofString "m.m", Text.ofString "_", Text.ofString "A.js"],
      .file source.toUTF8 none)]

def loneBang : List Text := ["analyze", "--path", "modules", "--exclude", "!"]

/-- A pattern that makes no sense leaves a run without an exit code. -/
theorem run_loneBang :
    Escapes .simple (oneScript "function (I) {}") loneBang ∧
      ∃ crash, run .simple (oneScript "function (I) {}") loneBang = .error crash ∧
        crash.message = Text.ofString "Invalid git pattern: '!'" := by
  have hmessage : ((run .simple (oneScript "function (I) {}") loneBang).mapError
      Crash.message).map (fun _ ↦ ()) = .error (Text.ofString "Invalid git pattern: '!'") := by
    decide +kernel
  cases hrun : run .simple (oneScript "function (I) {}") loneBang with
  | ok outcome =>
    rw [hrun] at hmessage
    cases hmessage
  | error crash =>
    rw [hrun] at hmessage
    have hends := run_ends .simple (oneScript "function (I) {}") loneBang
    exact ⟨hends.escapes.1 ⟨crash, hrun⟩, crash, rfl, Except.error.inj hmessage⟩

def plainArguments : List Text := ["analyze", "--path", "modules"]

/-- A class that extends one named like a closing tag. -/
def taggedScript : FileTree := oneScript "'[/]'.subclass(function (I) {});"

set_option maxRecDepth 100000 in
/-- The script is read and analyzed, and the class shows the name that it extends. -/
theorem exists_class_taggedScript :
    ∃ scripts modules reports, Source.read .default taggedScript "modules" = .ok scripts ∧
      Batch.analyze .default 4 scripts = .ok (modules, reports) ∧
      ∃ moduleName classes className analysis, (moduleName, classes) ∈ modules ∧
        (className, analysis) ∈ classes ∧ analysis.facts.superclass = some Console.closeLast := by
  have hclasses : (Source.read .default taggedScript "modules").toOption.bind (fun scripts ↦
      (Batch.analyze .default 4 scripts).toOption.map fun result ↦
        result.1.flatMap fun entry ↦ entry.2.map fun row ↦ row.2.facts.superclass) =
      some [some Console.closeLast] := by
    decide +kernel
  obtain ⟨scripts, hscripts, hclasses⟩ := Option.bind_eq_some_iff.1 hclasses
  obtain ⟨⟨modules, reports⟩, hresult, hclasses⟩ := exists_ok_of_toOption hclasses
  have hmem : some Console.closeLast ∈ modules.flatMap fun entry ↦
      entry.2.map fun row ↦ row.2.facts.superclass :=
    hclasses ▸ List.mem_singleton_self _
  obtain ⟨⟨moduleName, classes⟩, hmodule, hmem⟩ := List.mem_flatMap.1 hmem
  obtain ⟨⟨className, analysis⟩, hclass, hsuper⟩ := List.mem_map.1 hmem
  refine ⟨scripts, modules, reports, ?_, hresult, moduleName, classes, className, analysis, hmodule,
    hclass, hsuper⟩
  cases hread : Source.read .default taggedScript "modules" with
  | error fault =>
    rw [hread] at hscripts
    cases hscripts
  | ok found =>
    rw [hread] at hscripts
    exact congrArg _ (Option.some.inj hscripts)

set_option maxRecDepth 100000 in
/-- No console shows a class that extends one named like a tag that closes nothing. -/
theorem run_taggedScript (console : Console) :
    ∃ crash, run console taggedScript plainArguments = .error crash := by
  have hread : Arguments.read? plainArguments = some ⟨"modules", .table, none, "_", "@", [], 4⟩ := by
    decide +kernel
  have hshort : ¬taggedScript.isTooLong "modules" := by decide +kernel
  have hfound : ¬((taggedScript.locate? "modules").bind taggedScript.entry?).isNone := by
    decide +kernel
  have hvalid : Settings.make "_" "@" [] = .ok .default := rfl
  obtain ⟨scripts, modules, reports, hscripts, hresult, _, _, _, _, hmodule, hclass, hsuper⟩ :=
    exists_class_taggedScript
  rw [run, hread]
  dsimp only
  rw [analyze, if_neg hshort, if_neg hfound, hvalid]
  dsimp only
  rw [if_neg (by decide), hscripts]
  dsimp only
  rw [hresult]
  dsimp only
  rw [publish_of_table rfl]
  cases htables : Report.tables console _ modules with
  | error message => exact ⟨.table message, rfl⟩
  | ok shown =>
    have hshows := Report.exists_tables_iff.1 ⟨shown, htables⟩ Console.closeLast
      (.superclass hmodule hclass hsuper)
    exact absurd (Console.refuses_of_closeLast []) hshows

end CommandLine

end ClassScript
