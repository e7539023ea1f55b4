import ClassScript.Proofs.Batch
import ClassScript.Proofs.Sorting

/-!
# Archives assembled from batches

An archive has its modules, and each module its classes, in the strict order of their names, and no
module is empty. So an archive is determined by what it holds under each pair of names. In the archive
of a batch that is the analysis of the last script of the class, in the order of the scripts, that was
analyzed; the order in which the scripts are finished does not matter, and a later script that fails
takes nothing away.
-/

namespace ClassScript

/-! ## Lookups in tables -/

namespace Table

section Lookup

variable {κ ι α β : Type} [DecidableEq κ] [DecidableEq ι]

/-- Looking up twice is looking up the pair of keys. -/
theorem valuesOf_valuesOf (k : κ) (i : ι) (entries : List (κ × ι × α)) :
    valuesOf i (valuesOf k entries) =
      entries.filterMap fun entry ↦
        if entry.1 = k ∧ entry.2.1 = i then some entry.2.2 else none := by
  induction entries with
  | nil => rfl
  | cons entry rest ih =>
    obtain ⟨k', i', v⟩ := entry
    by_cases hk : k' = k
    · subst hk
      rw [valuesOf_cons_self]
      by_cases hi : i' = i
      · subst hi
        rw [valuesOf_cons_self, ih]
        simp
      · rw [valuesOf_cons_of_ne hi, ih]
        simp [hi]
    · rw [valuesOf_cons_of_ne hk, ih]
      simp [hk]

/-- Among grouped entries the last one with both keys is found. -/
theorem get?_grouped (k : κ) (i : ι) (entries : List (κ × ι × α)) :
    (get? k (grouped entries)).bind (get? i) =
      entries.reverse.findSome? fun entry ↦
        if entry.1 = k ∧ entry.2.1 = i then some entry.2.2 else none := by
  rw [← List.getLast?_filterMap, ← valuesOf_valuesOf, grouped, get?_gather]
  cases valuesOf k entries with
  | nil => rfl
  | cons first others => exact get?_latest i (first :: others)

end Lookup

/-- A table in the order of its keys is determined by what is found under each key. -/
theorem ext_get? {α : Type} {t u : Table Text α} (ht : t.keys.Pairwise (· < ·))
    (hu : u.keys.Pairwise (· < ·)) (h : ∀ k, get? k t = get? k u) : t = u := by
  have hkeys {t : Table Text α} (ht : t.keys.Pairwise (· < ·)) : t.keys.Nodup := ht.imp ne_of_lt
  have hperm : t.Perm u := by
    rw [List.perm_ext_iff_of_nodup (List.Nodup.of_map _ (hkeys ht))
      (List.Nodup.of_map _ (hkeys hu))]
    intro entry
    rw [mem_iff_get? (hkeys ht), mem_iff_get? (hkeys hu), h]
  exact eq_of_perm_of_pairwise_key Prod.fst hperm (hkeys ht)
    ((List.pairwise_map.1 ht).imp le_of_lt) ((List.pairwise_map.1 hu).imp le_of_lt)

end Table

/-! ## Archives -/

namespace ArchiveAnalysis

def class? (archive : ArchiveAnalysis) (moduleName className : Text) : Option ClassAnalysis :=
  (Table.get? moduleName archive).bind (Table.get? className)

/-- The names come in strict order and no module is empty. -/
structure InOrder (archive : ArchiveAnalysis) : Prop where
  modules : archive.keys.Pairwise (· < ·)
  classes : ∀ entry ∈ archive, (Table.keys entry.2).Pairwise (· < ·)
  inhabited : ∀ entry ∈ archive, entry.2 ≠ []

/-- An archive in order is determined by the classes that it holds. -/
theorem InOrder.ext {a b : ArchiveAnalysis} (ha : a.InOrder) (hb : b.InOrder)
    (h : ∀ moduleName className, a.class? moduleName className = b.class? moduleName className) :
    a = b := by
  have hnodup {archive : ArchiveAnalysis} (harchive : archive.InOrder) : archive.keys.Nodup :=
    harchive.modules.imp ne_of_lt
  -- A module that is not empty shows in some class.
  have hmissing {a b : ArchiveAnalysis} (hb : b.InOrder) {moduleName : Text}
      (h : ∀ className, a.class? moduleName className = b.class? moduleName className)
      (hnone : Table.get? moduleName a = none) : Table.get? moduleName b = none := by
    cases hsome : Table.get? moduleName b with
    | none => rfl
    | some classes =>
      have hmem := (Table.mem_iff_get? (hnodup hb)).2 hsome
      obtain ⟨⟨className, analysis⟩, rest, rfl⟩ :=
        List.exists_cons_of_ne_nil (hb.inhabited _ hmem)
      have hclass := h className
      simp [class?, hnone, hsome, Table.get?] at hclass
  apply Table.ext_get? ha.modules hb.modules
  intro moduleName
  cases hfound : Table.get? moduleName a with
  | none => exact (hmissing hb (h moduleName) hfound).symm
  | some classes =>
    cases hfound' : Table.get? moduleName b with
    | none =>
      rw [hmissing ha (fun className ↦ (h moduleName className).symm) hfound'] at hfound
      exact hfound.symm
    | some classes' =>
      have hmem := (Table.mem_iff_get? (hnodup ha)).2 hfound
      have hmem' := (Table.mem_iff_get? (hnodup hb)).2 hfound'
      apply congrArg some
      apply Table.ext_get? (ha.classes _ hmem) (hb.classes _ hmem')
      intro className
      simpa [class?, hfound, hfound'] using h moduleName className

section Assemble

variable {α : Type}

theorem byName_perm (entries : List (Text × α)) : (byName entries).Perm entries :=
  List.mergeSort_perm entries _

/-- A table with different keys is brought into strictly increasing order. -/
theorem pairwise_keys_byName {entries : Table Text α} (h : entries.keys.Nodup) :
    (Table.keys (byName entries)).Pairwise (· < ·) :=
  List.pairwise_map.2 (pairwise_mergeSort_key_lt Prod.fst (fun _ _ ↦ Text.le_iff) h)

/-- Whatever the results, they are assembled in order. -/
theorem inOrder_assemble (results : List (ClassSource × ClassAnalysis)) :
    (assemble results).InOrder := by
  unfold assemble
  rw [foldl_file_eq]
  have hgroups {entry : Text × ModuleAnalysis}
      (hentry : entry ∈ byName ((Table.grouped (results.map fun result ↦
        (result.1.moduleName, result.1.className, result.2))).map fun entry ↦
          (entry.1, byName entry.2))) :
      ∃ first others, entry.2 = byName (Table.latest (first :: others)) := by
    obtain ⟨⟨moduleName, classes⟩, hclasses, rfl⟩ :=
      List.mem_map.1 ((byName_perm _).mem_iff.1 hentry)
    obtain ⟨first, others, _, rfl⟩ := Table.mem_gather.1 hclasses
    exact ⟨first, others, rfl⟩
  constructor
  · apply pairwise_keys_byName
    rw [Table.keys_map]
    exact Table.nodup_keys_grouped _
  · intro entry hentry
    obtain ⟨first, others, heq⟩ := hgroups hentry
    rw [heq]
    exact pairwise_keys_byName (Table.nodup_keys_latest _)
  · intro entry hentry
    obtain ⟨first, others, heq⟩ := hgroups hentry
    rw [heq, ← List.length_pos_iff, (byName_perm _).length_eq, Table.latest, Table.gather]
    exact Nat.succ_pos _

/-- An assembled archive holds the last result of each class. -/
theorem class?_assemble (results : List (ClassSource × ClassAnalysis)) (moduleName className : Text) :
    (assemble results).class? moduleName className =
      results.reverse.findSome? fun result ↦
        if result.1.moduleName = moduleName ∧ result.1.className = className then some result.2
        else none := by
  have hmodule (groups : Table Text ModuleAnalysis) (hgroups : groups.keys.Nodup) :
      Table.get? moduleName (byName (groups.map fun entry ↦ (entry.1, byName entry.2))) =
        (Table.get? moduleName groups).map byName := by
    rw [← Table.get?_map]
    apply Eq.symm
    apply Table.get?_of_perm
    · rwa [Table.keys_map]
    · exact (byName_perm _).symm
  let entries := results.map fun result ↦ (result.1.moduleName, result.1.className, result.2)
  calc (assemble results).class? moduleName className
      = ((Table.get? moduleName (Table.grouped entries)).map byName).bind
          (Table.get? className) := by
        rw [class?, assemble, foldl_file_eq, hmodule _ (Table.nodup_keys_grouped _)]
    _ = (Table.get? moduleName (Table.grouped entries)).bind (Table.get? className) := by
        rw [Option.bind_map]
        apply Option.bind_congr
        intro classes hclasses
        obtain ⟨first, others, _, rfl⟩ :=
          Table.mem_gather.1 ((Table.mem_iff_get? (Table.nodup_keys_grouped entries)).2 hclasses)
        exact (Table.get?_of_perm (Table.nodup_keys_latest _) (byName_perm _).symm className).symm
    _ = results.reverse.findSome? fun result ↦
          if result.1.moduleName = moduleName ∧ result.1.className = className then some result.2
          else none := by
        rw [Table.get?_grouped, ← List.map_reverse, List.findSome?_map]
        rfl

end Assemble

end ArchiveAnalysis

/-! ## Batches -/

namespace Batch

/-- The analysis of the last script of a class that is analyzed, in the order of the scripts. -/
def latest? (settings : Settings) (scripts : List ClassSource) (moduleName className : Text) :
    Option ClassAnalysis :=
  scripts.reverse.findSome? fun script ↦
    if script.moduleName = moduleName ∧ script.className = className then
      (script.analysis settings).toOption
    else none

/-- The analyses of a batch, each with its script, in the order of the scripts. -/
theorem succeeded_outcomes (settings : Settings) (scripts : List ClassSource) :
    succeeded (outcomes settings scripts) =
      scripts.filterMap fun script ↦ (script.analysis settings).toOption.map (script, ·) := by
  unfold succeeded outcomes
  rw [List.filterMap_map]
  congr 1
  funext script
  dsimp only [Function.comp, analysisOf?]
  rw [← ClassSource.analysis]
  cases script.analysis settings with
  | error fault => rfl
  | ok analysis => rfl

/-- The archive of a batch holds the analysis of the last script of each class. -/
theorem class?_assemble_succeeded (settings : Settings) (scripts : List ClassSource)
    (moduleName className : Text) :
    (ArchiveAnalysis.assemble (succeeded (outcomes settings scripts))).class? moduleName className =
      latest? settings scripts moduleName className := by
  rw [ArchiveAnalysis.class?_assemble, succeeded_outcomes, ← List.getLast?_filterMap,
    List.filterMap_filterMap, List.getLast?_filterMap, latest?]
  congr 1
  funext script
  cases script.analysis settings with
  | error fault => simp [Except.toOption]
  | ok analysis => simp [Except.toOption]

/-- Reports come in the order of their paths. -/
theorem pairwise_sorted (reports : List ErrorReport) :
    (ErrorReport.sorted reports).Pairwise fun a b ↦ a.path ≤ b.path :=
  pairwise_mergeSort_key ErrorReport.path (fun _ _ ↦ Text.le_iff) reports

structure Assembles (settings : Settings) (scripts : List ClassSource) (archive : ArchiveAnalysis)
    (reports : List ErrorReport) : Prop where
  /-- Under each pair of names is the analysis of the last script of the class, and nothing else. -/
  latest : ∀ moduleName className,
    archive.class? moduleName className = latest? settings scripts moduleName className
  inOrder : archive.InOrder
  /-- There is one report on each script that fails. -/
  reported : reports.Perm (scripts.filterMap (ClassSource.report? settings))
  byPath : reports.Pairwise fun a b ↦ a.path ≤ b.path

section Assembles

variable {settings : Settings} {workers : Int} {scripts : List ClassSource} {completion : List Nat}

/-- A batch of scripts that are analyzed or reported is not cut short. -/
theorem findSome?_unreported (hcompletion : completion.Perm (List.range scripts.length))
    (h : ∀ script ∈ scripts, (∃ analysis, script.analysis settings = .ok analysis) ∨
      ∃ failure, script.analysis settings = .error (.failure failure)) :
    (finished settings scripts completion).findSome? unreported? = none := by
  rw [List.findSome?_eq_none_iff]
  intro outcome houtcome
  obtain ⟨script, hscript, rfl⟩ := (mem_finished hcompletion).1 houtcome
  rcases h script hscript with ⟨analysis, hanalysis⟩ | ⟨failure, hanalysis⟩
  · rw [hanalysis]
    rfl
  · rw [hanalysis]
    rfl

/-- Whatever the order in which the scripts are finished: if each of them is analyzed or fails, the batch
has a result. Its archive holds the analysis of the last script of each class that is analyzed, in the
order of the names, and its reports are those on the failed scripts, in the order of the paths. -/
theorem analyzeInOrder_assembles (hworkers : 0 < workers)
    (hcompletion : completion.Perm (List.range scripts.length))
    (hscripts : ∀ script ∈ scripts, (∃ analysis, script.analysis settings = .ok analysis) ∨
      ∃ failure, script.analysis settings = .error (.failure failure)) :
    ∃ archive reports,
      analyzeInOrder settings workers scripts completion = .ok (archive, reports) ∧
        Assembles settings scripts archive reports := by
  refine ⟨.assemble (succeeded (outcomes settings scripts)),
    ErrorReport.sorted ((finished settings scripts completion).filterMap reportOf?), ?_, ?_⟩
  · rw [analyzeInOrder_eq settings hcompletion hworkers, findSome?_unreported hcompletion hscripts]
  · constructor
    case latest => exact class?_assemble_succeeded settings scripts
    case inOrder => exact ArchiveAnalysis.inOrder_assemble _
    case reported => exact reports_perm hcompletion
    case byPath => exact pairwise_sorted _

/-- A class with three scripts, the last of which fails, and a path with two reports. -/
def repeatedClass : List ClassSource :=
  [⟨"m", "C", "function (I) {}".toList, "c.js"⟩,
    ⟨"m", "C", "'B'.subclass(function (I) {});".toList, "c.js"⟩,
    ⟨"m", "C", [], "b.js"⟩,
    ⟨"m", "A", [], "b.js"⟩]

set_option maxRecDepth 100000 in
theorem analyzeInOrder_repeatedClass :
    ∃ archive reports,
      analyzeInOrder .default 2 repeatedClass [3, 1, 0, 2] = .ok (archive, reports) ∧
        Assembles .default repeatedClass archive reports ∧
        (archive.class? "m" "C").map (·.facts.superclass) = some (some (Text.ofString "B")) := by
  have hreported : ∀ script ∈ repeatedClass,
      unreported? (script, script.analysis .default) = none := by
    decide +kernel
  have hscripts : ∀ script ∈ repeatedClass,
      (∃ analysis, script.analysis .default = .ok analysis) ∨
        ∃ failure, script.analysis .default = .error (.failure failure) := by
    intro script hscript
    rcases script.analysis_cases .default with hanalysis | hfailure | ⟨escape, hescape, _⟩
    · exact .inl hanalysis
    · exact .inr hfailure
    · have hnone := hreported script hscript
      rw [hescape] at hnone
      cases hnone
  have hlatest : (latest? .default repeatedClass "m" "C").map (·.facts.superclass) =
      some (some (Text.ofString "B")) := by
    decide +kernel
  have hbatch : ∃ archive reports,
      analyzeInOrder .default 2 repeatedClass [3, 1, 0, 2] = .ok (archive, reports) ∧
        Assembles .default repeatedClass archive reports :=
    analyzeInOrder_assembles (by decide) (by decide) hscripts
  obtain ⟨archive, reports, hresult, hassembles⟩ := hbatch
  exact ⟨archive, reports, hresult, hassembles, by rw [hassembles.latest, hlatest]⟩

end Assembles

end Batch

end ClassScript
