import ClassScript.Attachment
import ClassScript.Recognizer
import ClassScript.Settings

/-!
# Analyzing class scripts

The analysis of one script recognizes its class and attaches its remarks. The analysis of many goes
through all of them: a script that fails is reported and the others are still analyzed. Scripts may be
finished in any order; the order shows only among the reports on scripts with the same path.
-/

namespace ClassScript

/-- A class script to be analyzed. The source is what has been decoded from UTF-8, so that no surrogate
stands alone in it. -/
structure ClassSource where
  moduleName : Text
  className : Text
  source : List Char
  path : Text

/-- A script that could not be analyzed. -/
structure ErrorReport where
  path : Text
  moduleName : Text
  className : Text
  kind : Text
  message : Text
deriving DecidableEq

/-- Analyzes one class script. -/
def analyzeScript (settings : Settings) (moduleName className : Text) (source : List Char) :
    Except Recognizer.Fault ClassAnalysis := do
  match JavaScript.Script.read source with
  | .error line => .error (.failure ⟨.unreadable line, moduleName, className⟩)
  | .ok script =>
    let analysis ← (Recognizer.mk moduleName className .fresh |>.recognize script.statements).2
    return analysis.attach (Remark.collect [settings.marker] script)

namespace ErrorReport

def ofFailure (path : Text) (failure : Failure) : ErrorReport :=
  ⟨path, failure.moduleName, failure.className, failure.kind, failure.message⟩

/-- In the order of their paths; reports with the same path keep their order. -/
def sorted (reports : List ErrorReport) : List ErrorReport :=
  reports.mergeSort fun a b ↦ a.path.le b.path

end ErrorReport

namespace ArchiveAnalysis

/-- Files the analysis of a class; an earlier one of the same class is replaced. -/
def file (modules : ArchiveAnalysis) (result : ClassSource × ClassAnalysis) : ArchiveAnalysis :=
  Table.alter result.1.moduleName
    (fun classes ↦ Table.put result.1.className result.2 (classes.getD [])) modules

/-- Entries in the order of their names. -/
def byName {α : Type} (entries : List (Text × α)) : List (Text × α) :=
  entries.mergeSort fun a b ↦ a.1.le b.1

/-- The modules of the analyzed classes, with modules and classes in the order of their names. -/
def assemble (results : List (ClassSource × ClassAnalysis)) : ArchiveAnalysis :=
  byName ((results.foldl file []).map fun entry ↦ (entry.1, byName entry.2))

end ArchiveAnalysis

/-- Why a batch of scripts is not analyzed. -/
inductive BatchFault where
  /-- There is nobody to do the work. -/
  | noWorkers
  /-- A script failed in a way that is not reported. -/
  | escaped (fault : Recognizer.Fault)

def BatchFault.message : BatchFault → Text
  | noWorkers => "max_workers must be > 0"
  | escaped fault => fault.message

namespace Batch

/-- What became of each script, in the order of the scripts. -/
def outcomes (settings : Settings) (scripts : List ClassSource) :
    List (ClassSource × Except Recognizer.Fault ClassAnalysis) :=
  scripts.map fun script ↦
    (script, analyzeScript settings script.moduleName script.className script.source)

/-- What is known while scripts are being finished: the analyses by the indices of their scripts, and
the reports on failures, both in the order in which the scripts are finished. -/
structure Progress where
  analyses : Table Nat (ClassSource × ClassAnalysis) := []
  reports : List ErrorReport := []

/-- Takes note of a finished script: its analysis is kept under its index, a failure is reported, and
any other fault ends the batch. -/
def note (progress : Progress)
    (finished : Nat × ClassSource × Except Recognizer.Fault ClassAnalysis) :
    Except BatchFault Progress :=
  let (index, script, outcome) := finished
  match outcome with
  | .ok analysis =>
    .ok { progress with analyses := Table.put index (script, analysis) progress.analyses }
  | .error (.failure failure) =>
    .ok { progress with reports := progress.reports ++ [.ofFailure script.path failure] }
  | .error fault => .error (.escaped fault)

/-- The analyses in the order of their indices. -/
def Progress.inOrder (progress : Progress) : List (ClassSource × ClassAnalysis) :=
  (progress.analyses.mergeSort fun a b ↦ a.1 ≤ b.1).map Prod.snd

/-- Analyzes scripts that are finished in the given order of their indices. -/
def analyzeInOrder (settings : Settings) (workers : Int) (scripts : List ClassSource)
    (completion : List Nat) : Except BatchFault (ArchiveAnalysis × List ErrorReport) :=
  if workers ≤ 0 then .error .noWorkers
  else do
    let results := outcomes settings scripts
    let finished := completion.filterMap fun index ↦ results[index]?.map (index, ·)
    let progress ← finished.foldlM note {}
    return (.assemble progress.inOrder, ErrorReport.sorted progress.reports)

/-- Analyzes scripts that are finished in the order in which they are given. -/
def analyze (settings : Settings) (workers : Int) (scripts : List ClassSource) :
    Except BatchFault (ArchiveAnalysis × List ErrorReport) :=
  analyzeInOrder settings workers scripts (List.range scripts.length)

end Batch

end ClassScript
