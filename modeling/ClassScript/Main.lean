import ClassScript.Archive
import ClassScript.CommandLine

/-!
# The program

Reads what a command line names from the disk, runs the command line on it, prints what the run says
and writes the file that it asks for. All decisions are made by `CommandLine.run`.
-/

namespace ClassScript.Program

/-- The characters of a text; a surrogate that stands alone cannot be printed. -/
def printable (t : Text) : String :=
  String.ofList (t.map fun c ↦ c.toChar?.getD (Char.ofNat 0xFFFD))

/-- The absolute path of a place. -/
def pathOf (place : List Text) : String := printable (FileTree.absolute place)

def placeOf (path : String) : List Text := FileTree.components (Text.ofString path)

/-- The directories below a place on the disk, and the files among which class scripts are looked for. -/
partial def loadBelow (place : List Text) : IO (Table (List Text) Entry) := do
  let mut entries := [(place, Entry.directory)]
  for child in ← ((← IO.currentDir) / pathOf place).readDir do
    let name := Text.ofString child.fileName
    if ← child.path.isDir then entries := entries ++ (← loadBelow (place ++ [name]))
    else if Selector.extension.isSuffixOf name then
      entries := entries ++ [(place ++ [name], .file (← IO.FS.readBinFile child.path) none)]
  return entries

/-- The source of class scripts at a place on the disk. -/
def load (place : List Text) : IO (Table (List Text) Entry) := do
  let path := (← IO.currentDir) / pathOf place
  if ← path.isDir then loadBelow place
  else if ← path.pathExists then
    let content ← IO.FS.readBinFile path
    return [(place, .file content (Archive.members? content))]
  else return []

/-- The places that a path leads through, the last one first. -/
def placesOn (tree : FileTree) (path : Text) : List (List Text) :=
  (FileTree.components path).foldl (fun passed piece ↦
    FileTree.step (passed.headD []) piece :: passed) [tree.start path]

/-- What is on the disk at some places, without what is in directories. -/
def probe (places : List (List Text)) : IO (Table (List Text) Entry) := do
  let mut entries := []
  for place in places do
    let path := (← IO.currentDir) / pathOf place
    if ← path.isDir then entries := entries ++ [(place, .directory)]
    else if ← path.pathExists then
      entries := entries ++ [(place, .file ByteArray.empty none)]
  return entries

/-- The file tree as far as a command line is concerned. -/
def treeFor (arguments : List Text) : IO FileTree := do
  let empty : FileTree := { current := placeOf (toString (← IO.currentDir)), entries := [] }
  match CommandLine.Arguments.read? arguments with
  | none => return empty
  | some given =>
    let passed := placesOn empty given.path
    let output := (given.output.map (placesOn empty)).getD []
    let entries := (← probe (output ++ passed.drop 1)) ++ (← load (passed.headD []))
    return { empty with entries := Table.ofList entries }

/-- Makes the directories and writes the file that a run asks for. -/
def write (outcome : CommandLine.Outcome) : IO Unit := do
  for place in outcome.made do
    IO.FS.createDir (pathOf place)
  if let some (place, text) := outcome.written then IO.FS.writeFile (pathOf place) (printable text)

/-- Runs a command line on the disk. -/
def run (arguments : List Text) : IO UInt32 := do
  let stdout ← IO.getStdout
  let stderr ← IO.getStderr
  match CommandLine.run .simple (← treeFor arguments) arguments with
  | .error crash =>
    stderr.putStrLn (printable crash.message)
    return 1
  | .ok outcome =>
    stderr.putStr (printable outcome.stderr)
    stdout.putStr (printable outcome.stdout)
    write outcome
    return UInt32.ofNat outcome.exit

end ClassScript.Program

def main (arguments : List String) : IO UInt32 :=
  ClassScript.Program.run (arguments.map ClassScript.Text.ofString)
