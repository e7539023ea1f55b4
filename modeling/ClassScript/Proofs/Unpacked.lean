import ClassScript.Proofs.Assembly
import ClassScript.Proofs.Components

/-!
# Archives and unpacked directories

The files of a directory can be packed as the members of an archive. Both are read without a fault, but
not alike: the directory gives the selected files that have the extension of class scripts, in the order
of the components of their paths, and the archive gives all selected files, in the order of their whole
paths. The order decides which of several scripts of one class is kept. So the two batches agree just
when what the archive has in addition is not reported and the last script of each class is the same.
-/

namespace ClassScript

/-! ## Results that do not depend on the order -/

theorem ClassSource.path_of_report? {settings : Settings} {script : ClassSource} {report : ErrorReport}
    (h : script.report? settings = some report) : report.path = script.path := by
  unfold ClassSource.report? Batch.reportOf? at h
  split at h
  · cases h
    rfl
  · cases h

namespace Batch

/-- Two batches give the same result, or neither gives one, in whatever orders their scripts are
finished. -/
def Agree (settings : Settings) (scripts others : List ClassSource) : Prop :=
  ∀ workers : Int, 0 < workers → ∀ completion completion' : List Nat,
    completion.Perm (List.range scripts.length) → completion'.Perm (List.range others.length) →
      (analyzeInOrder settings workers scripts completion).toOption =
        (analyzeInOrder settings workers others completion').toOption

/-- What scripts with different paths give, in whatever order they are finished. -/
def result? (settings : Settings) (scripts : List ClassSource) :
    Option (ArchiveAnalysis × List ErrorReport) :=
  if scripts.any fun script ↦ (unreported? (script, script.analysis settings)).isSome then none
  else some (.assemble (succeeded (outcomes settings scripts)),
    ErrorReport.sorted (scripts.filterMap (ClassSource.report? settings)))

section Results

variable {settings : Settings} {scripts others : List ClassSource}

/-- A script is neither analyzed nor reported just when it has a stray name. -/
theorem isSome_unreported?_iff {script : ClassSource} :
    (unreported? (script, script.analysis settings)).isSome = true ↔ script.HasStrayName := by
  constructor
  · intro h
    obtain ⟨fault, hfault⟩ := Option.isSome_iff_exists.1 h
    obtain ⟨_, _, _, hstray⟩ := ClassSource.unreported?_eq_some hfault
    exact hstray
  · exact ClassSource.unreported?_of_hasStrayName settings

theorem result?_of_stray (h : ∃ script ∈ scripts, script.HasStrayName) :
    result? settings scripts = none := by
  obtain ⟨script, hscript, hstray⟩ := h
  exact if_pos (List.any_eq_true.2 ⟨script, hscript, isSome_unreported?_iff.2 hstray⟩)

theorem result?_of_not_stray (h : ∀ script ∈ scripts, ¬script.HasStrayName) :
    result? settings scripts = some (.assemble (succeeded (outcomes settings scripts)),
      ErrorReport.sorted (scripts.filterMap (ClassSource.report? settings))) := by
  apply if_neg
  rw [List.any_eq_true]
  rintro ⟨script, hscript, hunreported⟩
  exact h script hscript (isSome_unreported?_iff.1 hunreported)

theorem nodup_paths_reports (h : (scripts.map ClassSource.path).Nodup) :
    ((scripts.filterMap (ClassSource.report? settings)).map ErrorReport.path).Nodup := by
  apply List.pairwise_map.2
  refine (List.pairwise_map.1 h).filterMap _ ?_
  intro a b hab report hreport report' hreport'
  rwa [ClassSource.path_of_report? hreport, ClassSource.path_of_report? hreport']

/-- Reports with different paths are the same in order just when they are the same in any order. -/
theorem sorted_eq_sorted_iff {reports reports' : List ErrorReport}
    (h : (reports.map ErrorReport.path).Nodup) :
    ErrorReport.sorted reports = ErrorReport.sorted reports' ↔ reports.Perm reports' := by
  have hperm (reports : List ErrorReport) : (ErrorReport.sorted reports).Perm reports :=
    List.mergeSort_perm reports _
  constructor
  · intro heq
    exact (hperm reports).symm.trans (heq ▸ hperm reports')
  · intro hreports
    apply eq_of_perm_of_pairwise_key ErrorReport.path
    · exact (hperm reports).trans (hreports.trans (hperm reports').symm)
    · exact ((hperm reports).map ErrorReport.path).nodup_iff.2 h
    · exact pairwise_sorted reports
    · exact pairwise_sorted reports'

/-- Archives are equal just when they have the same latest analysis of each class. -/
theorem assemble_eq_assemble_iff :
    ArchiveAnalysis.assemble (succeeded (outcomes settings scripts)) =
        ArchiveAnalysis.assemble (succeeded (outcomes settings others)) ↔
      ∀ moduleName className,
        latest? settings scripts moduleName className =
          latest? settings others moduleName className := by
  simp only [← class?_assemble_succeeded]
  constructor
  · intro heq moduleName className
    rw [heq]
  · exact (ArchiveAnalysis.inOrder_assemble _).ext (ArchiveAnalysis.inOrder_assemble _)

/-- Scripts with different paths give one result, in whatever order they are finished. -/
theorem toOption_analyzeInOrder (hpaths : (scripts.map ClassSource.path).Nodup) {workers : Int}
    (hworkers : 0 < workers) {completion : List Nat}
    (hcompletion : completion.Perm (List.range scripts.length)) :
    (analyzeInOrder settings workers scripts completion).toOption = result? settings scripts := by
  rw [analyzeInOrder_eq settings hcompletion hworkers]
  cases hfault : (finished settings scripts completion).findSome? unreported? with
  | some fault =>
    obtain ⟨outcome, houtcome, hunreported⟩ := List.exists_of_findSome?_eq_some hfault
    obtain ⟨script, hscript, rfl⟩ := (mem_finished hcompletion).1 houtcome
    obtain ⟨_, _, _, hstray⟩ := ClassSource.unreported?_eq_some hunreported
    exact (result?_of_stray ⟨script, hscript, hstray⟩).symm
  | none =>
    have hstray : ∀ script ∈ scripts, ¬script.HasStrayName := by
      intro script hscript hstray
      have hnone := List.findSome?_eq_none_iff.1 hfault _
        ((mem_finished hcompletion).2 ⟨script, hscript, rfl⟩)
      exact absurd (isSome_unreported?_iff.2 hstray) (by rw [hnone]; exact Bool.false_ne_true)
    have hreports : ErrorReport.sorted ((finished settings scripts completion).filterMap reportOf?) =
        ErrorReport.sorted (scripts.filterMap (ClassSource.report? settings)) := by
      apply Eq.symm
      rw [sorted_eq_sorted_iff (nodup_paths_reports hpaths)]
      exact (reports_perm hcompletion).symm.trans (List.mergeSort_perm _ _)
    rw [result?_of_not_stray hstray, ← hreports]
    rfl

/-- Batches of scripts with different paths agree just when they have one result. -/
theorem agree_iff_result? (hpaths : (scripts.map ClassSource.path).Nodup)
    (hpaths' : (others.map ClassSource.path).Nodup) :
    Agree settings scripts others ↔ result? settings scripts = result? settings others := by
  constructor
  · intro hagree
    have hresults := hagree 1 Int.zero_lt_one _ _ (.refl _) (.refl _)
    rwa [toOption_analyzeInOrder hpaths Int.zero_lt_one (.refl _),
      toOption_analyzeInOrder hpaths' Int.zero_lt_one (.refl _)] at hresults
  · intro hresults workers hworkers completion completion' hcompletion hcompletion'
    rw [toOption_analyzeInOrder hpaths hworkers hcompletion,
      toOption_analyzeInOrder hpaths' hworkers hcompletion', hresults]

section Fewer

variable {p : ClassSource → Bool} (hpaths : (others.map ClassSource.path).Nodup)
  (hscripts : scripts.Perm (others.filter p))

include hscripts in
theorem mem_of_perm_filter {script : ClassSource} :
    script ∈ scripts ↔ script ∈ others ∧ p script = true :=
  hscripts.mem_iff.trans List.mem_filter

include hpaths hscripts

theorem nodup_paths_of_perm_filter : (scripts.map ClassSource.path).Nodup := by
  rw [(hscripts.map ClassSource.path).nodup_iff]
  exact hpaths.sublist (List.filter_sublist.map ClassSource.path)

/-- Leaving out scripts changes nothing in the reports just when none of them is reported. -/
theorem reports_perm_iff :
    (scripts.filterMap (ClassSource.report? settings)).Perm
        (others.filterMap (ClassSource.report? settings)) ↔
      ∀ script ∈ others, p script = false → script.report? settings = none := by
  constructor
  · intro hreports script hscript hleft
    apply Option.eq_none_iff_forall_ne_some.2
    intro report hreport
    -- A script that has the same report has the same path, so it is the same script.
    obtain ⟨other, hother, hsame⟩ := List.mem_filterMap.1
      (hreports.mem_iff.2 (List.mem_filterMap.2 ⟨script, hscript, hreport⟩))
    have hkept := (mem_of_perm_filter hscripts).1 hother
    have hpath : other.path = script.path :=
      (ClassSource.path_of_report? hsame).symm.trans (ClassSource.path_of_report? hreport)
    rw [List.inj_on_of_nodup_map hpaths hkept.1 hscript hpath, hleft] at hkept
    exact Bool.false_ne_true hkept.2
  · intro hnone
    have hfilter : (others.filter p).filterMap (ClassSource.report? settings) =
        others.filterMap (ClassSource.report? settings) := by
      rw [List.filterMap_filter]
      apply List.filterMap_congr
      intro script hscript
      cases hleft : p script with
      | true => rfl
      | false => exact (hnone script hscript hleft).symm
    exact hfilter ▸ hscripts.filterMap _

/-- A batch agrees with one that has more scripts just when both are lost to a stray name, or none is
and the scripts left out are not reported and the last script of each class is the same. -/
theorem agree_iff :
    Agree settings scripts others ↔
      (∃ script ∈ scripts, script.HasStrayName) ∨
        (∀ script ∈ others, ¬script.HasStrayName) ∧
          (∀ script ∈ others, p script = false → script.report? settings = none) ∧
          ∀ moduleName className,
            latest? settings scripts moduleName className =
              latest? settings others moduleName className := by
  have hpaths' := nodup_paths_of_perm_filter hpaths hscripts
  rw [agree_iff_result? hpaths' hpaths]
  by_cases hlost : ∃ script ∈ scripts, script.HasStrayName
  · obtain ⟨script, hscript, hstray⟩ := hlost
    have hother := ((mem_of_perm_filter hscripts).1 hscript).1
    rw [result?_of_stray ⟨script, hscript, hstray⟩, result?_of_stray ⟨script, hother, hstray⟩]
    exact ⟨fun _ ↦ .inl ⟨script, hscript, hstray⟩, fun _ ↦ rfl⟩
  · have hkept : ∀ script ∈ scripts, ¬script.HasStrayName := fun script hscript hstray ↦
      hlost ⟨script, hscript, hstray⟩
    rw [or_iff_right hlost, result?_of_not_stray hkept]
    by_cases hothers : ∀ script ∈ others, ¬script.HasStrayName
    · rw [result?_of_not_stray hothers, Option.some.injEq, Prod.mk.injEq, assemble_eq_assemble_iff,
        sorted_eq_sorted_iff (nodup_paths_reports hpaths'), reports_perm_iff hpaths hscripts,
        and_comm]
      exact (and_iff_right hothers).symm
    · have hstray : ∃ script ∈ others, script.HasStrayName := by
        simpa only [not_forall, not_not, exists_prop] using hothers
      rw [result?_of_stray hstray]
      constructor
      · intro heq
        cases heq
      · intro h
        exact absurd h.1 hothers

end Fewer

def names (script : ClassSource) : Text × Text := (script.moduleName, script.className)

/-- If each class has one script, the order of the scripts does not matter. -/
theorem latest?_of_perm (h : scripts.Perm others) (hnames : (scripts.map names).Nodup)
    (moduleName className : Text) :
    latest? settings scripts moduleName className = latest? settings others moduleName className := by
  let analysis? (script : ClassSource) : Option ClassAnalysis :=
    if script.moduleName = moduleName ∧ script.className = className then
      (script.analysis settings).toOption
    else none
  have hone : (scripts.filterMap analysis?).Pairwise fun _ _ ↦ False := by
    refine (List.pairwise_map.1 hnames).filterMap _ ?_
    intro a b hab analysis hanalysis analysis' hanalysis'
    have hnamed {script : ClassSource} {analysis : ClassAnalysis}
        (h : analysis? script = some analysis) : names script = (moduleName, className) := by
      obtain ⟨⟨hmodule, hclass⟩, _⟩ := Option.ite_none_right_eq_some.1 h
      rw [names, hmodule, hclass]
    exact hab ((hnamed hanalysis).trans (hnamed hanalysis').symm)
  have hfound := h.filterMap analysis?
  have hequal : scripts.filterMap analysis? = others.filterMap analysis? := by
    cases hlist : scripts.filterMap analysis? with
    | nil =>
      rw [hlist] at hfound
      exact hfound.nil_eq
    | cons first rest =>
      rw [hlist] at hone hfound
      obtain rfl : rest = [] := by
        apply List.eq_nil_iff_forall_not_mem.2
        exact (List.pairwise_cons.1 hone).1
      exact (List.singleton_perm.1 hfound).symm ▸ rfl
  show scripts.reverse.findSome? analysis? = others.reverse.findSome? analysis?
  rw [← List.getLast?_filterMap, ← List.getLast?_filterMap, hequal]

/-- Batches with the same scripts agree, in whatever orders, if no two scripts are named alike. -/
theorem agree_of_distinct (hpaths : (others.map ClassSource.path).Nodup) {p : ClassSource → Bool}
    (hscripts : scripts.Perm (others.filter p)) (hall : ∀ script ∈ others, p script = true)
    (hnames : (others.map names).Nodup) : Agree settings scripts others := by
  rw [agree_iff hpaths hscripts]
  rw [List.filter_eq_self.2 hall] at hscripts
  by_cases hlost : ∃ script ∈ scripts, script.HasStrayName
  · exact .inl hlost
  · refine .inr ⟨?_, ?_, ?_⟩
    · intro script hscript hstray
      exact hlost ⟨script, hscripts.mem_iff.2 hscript, hstray⟩
    · intro script hscript hleft
      rw [hall script hscript] at hleft
      cases hleft
    · exact latest?_of_perm hscripts ((hscripts.map names).nodup_iff.2 hnames)

end Results

end Batch

/-! ## Reading files and members -/

def ClassSource.hasExtension (script : ClassSource) : Bool :=
  Selector.extension.isSuffixOf script.path

namespace Source

def packed (file : List Text × ByteArray) : Member :=
  { name := Text.join [FileTree.separator] file.1, content := file.2 }

/-- Files as they lie in a directory, with texts for contents. -/
structure Plain (files : List (List Text × ByteArray)) : Prop where
  different : (files.map Prod.fst).Nodup
  named : ∀ file ∈ files, file.1 ≠ [] ∧ ∀ name ∈ file.1, FileTree.separator ∉ name
  readable : ∀ file ∈ files, (String.fromUTF8? file.2).isSome = true

/-- The members of an archive are the files, in any order, and perhaps directories. -/
def Packs (members : List Member) (files : List (List Text × ByteArray)) : Prop :=
  (members.filter fun member ↦ member.name.getLast? != some FileTree.separator).Perm
    (files.map packed)

/-- The script that a member with a text is read as, if it is selected. -/
def scriptOf? (selector : Selector) (member : Member) : Option ClassSource := do
  let identity ← selector.identity? member.name
  let text ← String.fromUTF8? member.content
  return ⟨identity.moduleName, identity.className, text.toList, member.name⟩

theorem path_of_scriptOf? {selector : Selector} {member : Member} {script : ClassSource}
    (h : scriptOf? selector member = some script) : script.path = member.name := by
  obtain ⟨identity, _, h⟩ := Option.bind_eq_some_iff.1 h
  obtain ⟨text, _, h⟩ := Option.bind_eq_some_iff.1 h
  cases h
  rfl

theorem scriptOf?_eq_some {selector : Selector} {member : Member} {identity : Identity}
    {text : String} (hidentity : selector.identity? member.name = some identity)
    (htext : String.fromUTF8? member.content = some text) :
    scriptOf? selector member =
      some ⟨identity.moduleName, identity.className, text.toList, member.name⟩ := by
  rw [scriptOf?, hidentity, htext]
  rfl

theorem script?_eq (selector : Selector) {member : Member}
    (h : (String.fromUTF8? member.content).isSome = true) :
    script? selector member.name (.ok member.content) = .ok (scriptOf? selector member) := by
  obtain ⟨text, htext⟩ := Option.isSome_iff_exists.1 h
  have hdecode : decode member.name member.content = .ok text.toList := by
    rw [decode, htext]
  unfold script?
  cases hidentity : selector.identity? member.name with
  | none =>
    rw [scriptOf?, hidentity]
    rfl
  | some identity =>
    rw [scriptOf?_eq_some hidentity htext]
    show (decode member.name member.content >>= fun source ↦ _) = _
    rw [hdecode]
    rfl

/-- Members with texts are read as the scripts that are selected among them. -/
theorem scripts_eq (selector : Selector) {members : List Member}
    (h : ∀ member ∈ members, (String.fromUTF8? member.content).isSome = true) :
    scripts selector (members.map fun member ↦ (member.name, .ok member.content)) =
      .ok (members.filterMap (scriptOf? selector)) := by
  have hmapM : (members.map fun member ↦ (member.name, Except.ok member.content)).mapM
      (fun entry : Text × Except SourceFault ByteArray ↦ script? selector entry.1 entry.2) =
        .ok (members.map (scriptOf? selector)) := by
    induction members with
    | nil => rfl
    | cons member rest ih =>
      rw [List.map_cons, List.mapM_cons, script?_eq selector (h member List.mem_cons_self),
        ih fun other hother ↦ h other (List.mem_cons_of_mem member hother)]
      rfl
  unfold scripts
  rw [hmapM]
  show Except.ok ((members.map (scriptOf? selector)).filterMap id) = _
  rw [List.filterMap_map, Function.id_comp]

section Readers

variable {settings : Settings} {files : List (List Text × ByteArray)} {members : List Member}

theorem Plain.splitAt_name (hplain : Plain files) {file : List Text × ByteArray}
    (hfile : file ∈ files) : Text.splitAt FileTree.separator (packed file).name = file.1 :=
  Text.splitAt_join (hplain.named file hfile).1 (hplain.named file hfile).2

theorem Plain.isSuffixOf_name (hplain : Plain files) {file : List Text × ByteArray}
    (hfile : file ∈ files) :
    Selector.extension.isSuffixOf (packed file).name =
      file.1.getLast?.any fun name ↦ Selector.extension.isSuffixOf name :=
  Text.isSuffixOf_join (by decide) (hplain.named file hfile).1

theorem Plain.nodup_names (hplain : Plain files) :
    ((files.map packed).map Member.name).Nodup := by
  apply List.pairwise_map.2
  apply List.pairwise_map.2
  apply (List.pairwise_map.1 hplain.different).imp_of_mem
  intro a b ha hb hab hname
  apply hab
  rw [← hplain.splitAt_name ha, ← hplain.splitAt_name hb, hname]

/-- A directory is read by place, and only its scripts are looked at. -/
theorem readDirectory_eq (hplain : Plain files) {selector : Selector}
    (hselector : Source.selector settings = .ok selector) :
    readDirectory settings files =
      .ok ((((files.filter fun file ↦ file.1.getLast?.any fun name ↦
        Selector.extension.isSuffixOf name).mergeSort fun a b ↦ placeLe a.1 b.1).map
          packed).filterMap (scriptOf? selector)) := by
  rw [← scripts_eq, readDirectory, hselector, List.map_map]
  · rfl
  · intro member hmember
    obtain ⟨file, hfile, rfl⟩ := List.mem_map.1 hmember
    exact hplain.readable file (List.mem_filter.1 (List.mem_mergeSort.1 hfile)).1

/-- An archive is read by name, and all of its files are looked at. -/
theorem readArchive_eq (hplain : Plain files) (hpacks : Packs members files) {selector : Selector}
    (hselector : Source.selector settings = .ok selector) (archive : Text) :
    readArchive settings archive members =
      .ok (((members.filter fun member ↦
        member.name.getLast? != some FileTree.separator).mergeSort fun a b ↦
          a.name.le b.name).filterMap (scriptOf? selector)) := by
  have hpacked : ∀ member ∈ (members.filter fun member ↦
      member.name.getLast? != some FileTree.separator).mergeSort fun a b ↦ a.name.le b.name,
      ∃ file ∈ files, packed file = member := by
    intro member hmember
    exact List.mem_map.1 (hpacks.mem_iff.1 (List.mem_mergeSort.1 hmember))
  rw [← scripts_eq, readArchive, hselector]
  · show scripts selector _ = scripts selector _
    congr 1
    apply List.map_congr_left
    intro member hmember
    obtain ⟨file, _, rfl⟩ := hpacked member hmember
    rfl
  · intro member hmember
    obtain ⟨file, hfile, rfl⟩ := hpacked member hmember
    exact hplain.readable file hfile

end Readers

/-- What is read from a directory, compared with what is read from an archive of its files. -/
structure Compares (settings : Settings) (selector : Selector)
    (files : List (List Text × ByteArray)) (unpacked archived : List ClassSource) : Prop where
  /-- All selected files are read from the archive. -/
  selected : archived.Perm ((files.map packed).filterMap (scriptOf? selector))
  /-- Those that have the extension are read from the directory. -/
  extended : unpacked.Perm (archived.filter ClassSource.hasExtension)
  byPlace : unpacked.Pairwise fun a b ↦
    Text.splitAt FileTree.separator a.path < Text.splitAt FileTree.separator b.path
  byName : archived.Pairwise fun a b ↦ a.path < b.path
  /-- When the batches agree. -/
  agree : Batch.Agree settings unpacked archived ↔
    (∃ script ∈ unpacked, script.HasStrayName) ∨
      (∀ script ∈ archived, ¬script.HasStrayName) ∧
        (∀ script ∈ archived, script.hasExtension = false → script.report? settings = none) ∧
        ∀ moduleName className,
          Batch.latest? settings unpacked moduleName className =
            Batch.latest? settings archived moduleName className
  /-- They do if all scripts have the extension and no class has two of them. -/
  distinct : (∀ script ∈ archived, script.hasExtension = true) →
    (archived.map Batch.names).Nodup → Batch.Agree settings unpacked archived

theorem compares_of_perm {settings : Settings} {selector : Selector}
    {files : List (List Text × ByteArray)} {unpacked archived : List ClassSource}
    (selected : archived.Perm ((files.map packed).filterMap (scriptOf? selector)))
    (extended : unpacked.Perm (archived.filter ClassSource.hasExtension))
    (byPlace : unpacked.Pairwise fun a b ↦
      Text.splitAt FileTree.separator a.path < Text.splitAt FileTree.separator b.path)
    (byName : archived.Pairwise fun a b ↦ a.path < b.path) :
    Compares settings selector files unpacked archived := by
  have hpaths : (archived.map ClassSource.path).Nodup :=
    List.pairwise_map.2 (byName.imp ne_of_lt)
  exact ⟨selected, extended, byPlace, byName, Batch.agree_iff hpaths extended,
    Batch.agree_of_distinct hpaths extended⟩

section Compared

variable {files : List (List Text × ByteArray)} (hplain : Plain files) (selector : Selector)

include hplain

/-- Looking at the files with the extension selects the scripts with the extension. -/
theorem filterMap_scriptOf?_filter :
    ((files.filter fun file ↦ file.1.getLast?.any fun name ↦
        Selector.extension.isSuffixOf name).map packed).filterMap (scriptOf? selector) =
      ((files.map packed).filterMap (scriptOf? selector)).filter ClassSource.hasExtension := by
  rw [List.filterMap_map, List.filterMap_map, List.filterMap_filter, List.filter_filterMap]
  apply List.filterMap_congr
  intro file hfile
  rw [← hplain.isSuffixOf_name hfile]
  cases hscript : (scriptOf? selector ∘ packed) file with
  | none => simp
  | some script =>
    rw [Option.filter_some, ClassSource.hasExtension, path_of_scriptOf? hscript]

theorem pairwise_splitAt_path {ordered : List (List Text × ByteArray)}
    (hordered : ordered.Pairwise fun a b ↦ a.1 < b.1) (hfiles : ∀ file ∈ ordered, file ∈ files) :
    ((ordered.map packed).filterMap (scriptOf? selector)).Pairwise fun a b ↦
      Text.splitAt FileTree.separator a.path < Text.splitAt FileTree.separator b.path := by
  rw [List.filterMap_map, List.pairwise_filterMap]
  apply hordered.imp_of_mem
  intro a b ha hb hab script hscript script' hscript'
  rw [path_of_scriptOf? hscript, path_of_scriptOf? hscript', hplain.splitAt_name (hfiles a ha),
    hplain.splitAt_name (hfiles b hb)]
  exact hab

end Compared

/-- Whatever the settings, the files of a directory are read without a fault from the directory and from
an archive of them, or not at all because of a pattern in the settings. The two readings differ in the
files without the extension and in the order of the scripts. -/
theorem readDirectory_compares {settings : Settings} {files : List (List Text × ByteArray)}
    {members : List Member} (hplain : Plain files) (hpacks : Packs members files) (archive : Text) :
    (∀ fault, Source.selector settings = .error fault →
      readDirectory settings files = .error fault ∧
        readArchive settings archive members = .error fault) ∧
      ∀ selector, Source.selector settings = .ok selector →
        ∃ unpacked archived, readDirectory settings files = .ok unpacked ∧
          readArchive settings archive members = .ok archived ∧
          Compares settings selector files unpacked archived := by
  constructor
  · intro fault hfault
    rw [readDirectory, readArchive, hfault]
    exact ⟨rfl, rfl⟩
  · intro selector hselector
    refine ⟨_, _, readDirectory_eq hplain hselector, readArchive_eq hplain hpacks hselector archive, ?_⟩
    apply compares_of_perm
    case selected => exact ((List.mergeSort_perm _ _).trans hpacks).filterMap _
    case extended =>
      have harchived := (((List.mergeSort_perm _ fun a b : Member ↦ a.name.le b.name).trans
        hpacks).filterMap (scriptOf? selector)).filter ClassSource.hasExtension
      refine List.Perm.trans ?_ harchived.symm
      rw [← filterMap_scriptOf?_filter hplain]
      exact ((List.mergeSort_perm _ _).map packed).filterMap _
    case byPlace =>
      apply pairwise_splitAt_path hplain
      · exact pairwise_mergeSort_key_lt Prod.fst (fun _ _ ↦ placeLe_iff)
          (hplain.different.sublist (List.filter_sublist.map Prod.fst))
      · intro file hfile
        exact (List.mem_filter.1 (List.mem_mergeSort.1 hfile)).1
    case byName =>
      have hnames := ((hpacks.map Member.name).nodup_iff).2 hplain.nodup_names
      have hordered := pairwise_mergeSort_key_lt Member.name (fun _ _ ↦ Text.le_iff) hnames
      refine hordered.filterMap _ ?_
      intro a b hab script hscript script' hscript'
      rwa [path_of_scriptOf? hscript, path_of_scriptOf? hscript']

theorem fromUTF8?_toUTF8 (text : String) : String.fromUTF8? text.toUTF8 = some text :=
  dif_pos text.isValidUTF8

/-- Two scripts of one class, in the order of their components and against that of their names. -/
def clashingFiles : List (List Text × ByteArray) :=
  [(["m.m", "_", "a", "b.js"].map Text.ofString, "'X'.subclass(function (I) {});".toUTF8),
    (["m.m", "_", "a.b.js"].map Text.ofString, "'Y'.subclass(function (I) {});".toUTF8)]

def clashingScripts : List ClassSource :=
  [⟨"m.m", "a.b", "'X'.subclass(function (I) {});".toList, "m.m/_/a/b.js"⟩,
    ⟨"m.m", "a.b", "'Y'.subclass(function (I) {});".toList, "m.m/_/a.b.js"⟩]

theorem filterMap_scriptOf?_clashingFiles {selector : Selector}
    (h : clashingFiles.map (fun file ↦ selector.identity? (packed file).name) =
      [some ⟨"m.m", "a.b"⟩, some ⟨"m.m", "a.b"⟩]) :
    (clashingFiles.map packed).filterMap (scriptOf? selector) = clashingScripts := by
  obtain ⟨hfirst, hrest⟩ := List.cons.inj h
  obtain ⟨hsecond, _⟩ := List.cons.inj hrest
  have hfirst := scriptOf?_eq_some hfirst (fromUTF8?_toUTF8 "'X'.subclass(function (I) {});")
  have hsecond := scriptOf?_eq_some hsecond (fromUTF8?_toUTF8 "'Y'.subclass(function (I) {});")
  exact (List.filterMap_cons_some hfirst).trans
    (congrArg (List.cons _) (List.filterMap_cons_some hsecond))

set_option maxRecDepth 100000 in
/-- The directory and the archive keep different scripts of the class. -/
theorem readDirectory_clashingFiles :
    readDirectory .default clashingFiles = .ok clashingScripts ∧
      readArchive .default "modules.zip" (clashingFiles.map packed) = .ok clashingScripts.reverse ∧
      ¬Batch.Agree .default clashingScripts clashingScripts.reverse := by
  have hplain : Plain clashingFiles := by
    constructor
    · decide
    · decide
    · decide +kernel
  have hpacks : Packs (clashingFiles.map packed) clashingFiles := by
    rw [Packs, List.filter_eq_self.2]
    decide
  have hidentities : (Source.selector .default).toOption.map (fun selector ↦
      clashingFiles.map fun file ↦ selector.identity? (packed file).name) =
        some [some ⟨"m.m", "a.b"⟩, some ⟨"m.m", "a.b"⟩] := by
    decide +kernel
  obtain ⟨selector, hselector, hidentities⟩ := exists_ok_of_toOption hidentities
  obtain ⟨unpacked, archived, hunpacked, harchived, hcompares⟩ :=
    (readDirectory_compares hplain hpacks "modules.zip").2 selector hselector
  have hselected := hcompares.selected
  rw [filterMap_scriptOf?_clashingFiles hidentities] at hselected
  obtain rfl : archived = clashingScripts.reverse := by
    apply eq_of_perm_of_pairwise_key ClassSource.path (hselected.trans (List.reverse_perm _).symm)
    · exact (hselected.map ClassSource.path).nodup_iff.2 (by decide)
    · exact hcompares.byName.imp le_of_lt
    · simp only [← Text.le_iff]
      decide
  have hextended := hcompares.extended
  rw [List.filter_eq_self.2 (by decide)] at hextended
  obtain rfl : unpacked = clashingScripts := by
    apply eq_of_perm_of_pairwise_key (fun script ↦ Text.splitAt FileTree.separator script.path)
      (hextended.trans (List.reverse_perm _))
    · exact hcompares.byPlace.imp ne_of_lt |> List.pairwise_map.2
    · exact hcompares.byPlace.imp le_of_lt
    · simp only [← placeLe_iff]
      decide
  refine ⟨hunpacked, harchived, ?_⟩
  rw [hcompares.agree]
  have hreported : ∀ script ∈ clashingScripts,
      (Batch.unreported? (script, script.analysis .default)).isSome = false := by
    decide +kernel
  have hlatest : (Batch.latest? .default clashingScripts "m.m" "a.b").map (·.facts.superclass) ≠
      (Batch.latest? .default clashingScripts.reverse "m.m" "a.b").map (·.facts.superclass) := by
    decide +kernel
  rintro (⟨script, hscript, hstray⟩ | ⟨_, _, hsame⟩)
  · have hsome := ClassSource.unreported?_of_hasStrayName .default hstray
    rw [hreported script hscript] at hsome
    cases hsome
  · exact hlatest (by rw [hsame])

end Source

end ClassScript
