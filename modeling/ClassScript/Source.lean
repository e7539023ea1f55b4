import ClassScript.Analyzer
import ClassScript.FileTree
import ClassScript.Selector

/-!
# Reading class scripts

Class scripts are read from a directory or from an archive, in the order of their paths. In a directory
only files with the extension of class scripts are looked at, and paths are compared component by
component; the members of an archive are all looked at, and compared by their whole names.
-/

namespace ClassScript

/-- Why the class scripts of a source cannot be read. -/
inductive SourceFault where
  | pattern (fault : Path.PatternFault)
  | notUtf8 (path : Text)
  | damaged (archive member : Text)
  /-- The source is neither an archive nor a directory. -/
  | noSource (path : Text)
deriving DecidableEq

namespace SourceFault

def message : SourceFault → Text
  | pattern fault => fault.message
  | notUtf8 path => Text.ofString "Class script is not UTF-8: " ++ path
  | damaged archive member =>
    Text.ofString "Failed to read archive " ++ archive ++
      Text.ofString ": Bad CRC-32 for file " ++ member.quoted
  | noSource path => Text.ofString "Not an archive or directory: " ++ path

end SourceFault

namespace Source

/-- Orders places component by component. -/
def placeLe : List Text → List Text → Bool
  | [], _ => true
  | _ :: _, [] => false
  | a :: as, b :: bs => if a = b then placeLe as bs else a.le b

/-- The text of a class script. -/
def decode (path : Text) (content : ByteArray) : Except SourceFault (List Char) :=
  match String.fromUTF8? content with
  | some text => .ok text.toList
  | none => .error (.notUtf8 path)

/-- The class script at a path, if it is selected. -/
def script? (selector : Selector) (path : Text) (content : Except SourceFault ByteArray) :
    Except SourceFault (Option ClassSource) :=
  match selector.identity? path with
  | none => .ok none
  | some identity => do
    let source ← decode path (← content)
    return some ⟨identity.moduleName, identity.className, source, path⟩

/-- The selected scripts among paths with their contents, in that order. -/
def scripts (selector : Selector) (contents : List (Text × Except SourceFault ByteArray)) :
    Except SourceFault (List ClassSource) := do
  return (← contents.mapM fun (path, content) ↦ script? selector path content).filterMap id

def selector (settings : Settings) : Except SourceFault Selector :=
  (Selector.ofSettings settings).mapError .pattern

/-- Reads the class scripts among the files of a directory, given by their components. -/
def readDirectory (settings : Settings) (files : List (List Text × ByteArray)) :
    Except SourceFault (List ClassSource) := do
  let candidates := files.filter fun file ↦
    file.1.getLast?.any fun name ↦ Selector.extension.isSuffixOf name
  let ordered := candidates.mergeSort fun a b ↦ placeLe a.1 b.1
  scripts (← selector settings)
    (ordered.map fun file ↦ (Text.join [FileTree.separator] file.1, .ok file.2))

/-- Reads the class scripts among the members of an archive. A name with a slash at its end stands for
a directory. -/
def readArchive (settings : Settings) (archive : Text) (members : List Member) :
    Except SourceFault (List ClassSource) := do
  let files := members.filter fun member ↦ member.name.getLast? != some FileTree.separator
  let ordered := files.mergeSort fun a b ↦ a.name.le b.name
  scripts (← selector settings)
    (ordered.map fun member ↦
      (member.name, if member.damaged then .error (.damaged archive member.name)
        else .ok member.content))

/-- Reads the class scripts of the source at a path. -/
def read (settings : Settings) (tree : FileTree) (path : Text) :
    Except SourceFault (List ClassSource) :=
  let place? := tree.locate? path
  match place?.bind tree.entry? with
  | some .directory => readDirectory settings (tree.filesBelow (place?.getD []))
  | some (.file _ (some members)) => readArchive settings (FileTree.shown path) members
  | _ => .error (.noSource (FileTree.shown path))

end Source

end ClassScript
