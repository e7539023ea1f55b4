import ClassScript.CommandLine.Arguments
import ClassScript.Report
import ClassScript.Source

/-!
# Runs of the command line

A run reads a command line and a file tree, and ends with what is printed, an exit code, and perhaps a
file to be written. The code is 0 if all scripts were analyzed, 1 if some were not, and 2 if the
command line, the source or the output was refused. Tables and JSON are shown on a console, and what is
printed can hold every text.

Some faults end a run without an exit code: a path that is too long to be looked up, a malformed
pattern, a script whose names cannot be decoded, a table that the console refuses, and an output whose
path cannot be handed over.
-/

namespace ClassScript.CommandLine

structure Outcome where
  exit : Nat
  stdout : Text := []
  stderr : Text := []
  /-- Directories to be made, by their places. -/
  made : List (List Text) := []
  /-- A file to be written after that, by its place. -/
  written : Option (List Text × Text) := none

/-- The file tree after a run. -/
def Outcome.applyTo (outcome : Outcome) (tree : FileTree) : FileTree :=
  let tree := tree.makeDirectories outcome.made
  match outcome.written with
  | some (place, text) =>
    tree.writeFile place (String.ofList (text.filterMap CodePoint.toChar?)).toUTF8
  | none => tree

/-- Why a run ends without an outcome. -/
inductive Crash where
  /-- The path of the source is too long to be looked up. -/
  | path (path : Text)
  | pattern (fault : Path.PatternFault)
  | batch (fault : BatchFault)
  /-- The console refuses a text. -/
  | table (message : Text)
  /-- The path of the output cannot be handed over. -/
  | output (path : Text)

def Crash.message : Crash → Text
  | .path shown => Text.ofString "[Errno 36] File name too long: " ++ shown.quoted
  | .pattern fault => fault.message
  | .batch fault => fault.message
  | .table reason => reason
  | .output shown => shown.encodingFault

/-- The outcome of a refused command line or source. -/
def refused (message : Text) : Outcome :=
  { exit := 2, stderr := message ++ [CodePoint.ofChar '\n'] }

def invalidSettings (reason : Text) : Outcome :=
  refused (Text.ofString "Invalid settings: " ++ reason)

def errorLine (report : ErrorReport) : Text :=
  Text.ofString "analyzer_error: " ++ report.path ++ Text.ofString ": " ++ report.message ++
    [CodePoint.ofChar '\n']

/-- What there is to save, and the messages before it, saved at a path. -/
def save (tree : FileTree) (output : Text) (exit : Nat) (stderr payload : Text) :
    Except Crash Outcome :=
  match tree.saving output with
  | .written made place => .ok { exit, stderr, made, written := some (place, payload) }
  | .failed made =>
    let failure := refused (Text.ofString "Failed to write JSON output file: " ++ output)
    .ok { failure with stderr := stderr ++ failure.stderr, made }
  | .unencodable path => .error (.output path)

/-- The place that is shown above the tables. -/
def shownPlace (tree : FileTree) (arguments : Arguments) : Text :=
  FileTree.absolute ((tree.locate? arguments.path).getD [])

/-- Reports an analysis in the form that the arguments ask for. -/
def publish (console : Console) (tree : FileTree) (arguments : Arguments) (modules : ArchiveAnalysis)
    (reports : List ErrorReport) : Except Crash Outcome :=
  let exit := if reports.isEmpty then 0 else 1
  let stderr := reports.flatMap errorLine
  match arguments.format with
  | .table =>
    match Report.tables console (shownPlace tree arguments) modules with
    | .ok stdout => .ok { exit, stderr, stdout }
    | .error message => .error (.table message)
  | .json =>
    let payload := Text.ofString (Report.payload modules reports).indented
    match arguments.output with
    | none | some [] =>
      .ok { exit, stderr, stdout := console.plain payload ++ [CodePoint.ofChar '\n'] }
    | some output => save tree output exit stderr payload

/-- Runs an analysis. -/
def analyze (console : Console) (tree : FileTree) (arguments : Arguments) : Except Crash Outcome :=
  if tree.isTooLong arguments.path then .error (.path (FileTree.shown arguments.path))
  else if ((tree.locate? arguments.path).bind tree.entry?).isNone then
    .ok (refused (Text.ofString "Path does not exist: " ++ FileTree.shown arguments.path))
  else
    match Settings.make arguments.classHome arguments.marker arguments.exclude with
    | .error fault => .ok (invalidSettings fault.message)
    | .ok settings =>
      if arguments.workers ≤ 0 then .ok (invalidSettings BatchFault.noWorkers.message)
      else
        match Source.read settings tree arguments.path with
        | .error (.pattern fault) => .error (.pattern fault)
        | .error fault => .ok (refused fault.message)
        | .ok scripts =>
          match Batch.analyze settings arguments.workers scripts with
          | .error fault => .error (.batch fault)
          | .ok (modules, reports) => publish console tree arguments modules reports

/-- Runs a command line. -/
def run (console : Console) (tree : FileTree) (arguments : List Text) : Except Crash Outcome :=
  match Arguments.read? arguments with
  | none => .ok { exit := 2 }
  | some arguments => analyze console tree arguments

end ClassScript.CommandLine
