import ClassScript.Table
import ClassScript.Text.Quoted

/-!
# File trees

The files and directories that a run can see. It can read all of them, and all members of archives but
those without the right checksum. Places are named by their components, from the root of the tree down.
An archive is a file whose members are known.

A path is a text that leads to a place component by component, and `..` leads up from a directory that
has to be there. Paths are handed over as bytes, in UTF-8: there is no way to hand over a NUL or a
surrogate, except for the 128 surrogates that stand for bytes, and neither names nor paths may be too
long.
-/

namespace ClassScript

/-- A member of an archive; a damaged one does not have the checksum that the archive gives for it. -/
structure Member where
  name : Text
  content : ByteArray
  damaged : Bool := false

inductive Entry where
  | directory
  | file (content : ByteArray) (members : Option (List Member))

/-- How many bytes a code point takes in a path; none if it cannot be handed over. -/
def CodePoint.pathBytes? (c : CodePoint) : Option Nat :=
  if c.val = 0 then none
  else if 0xD800 ≤ c.val ∧ c.val < 0xE000 then
    if 0xDC80 ≤ c.val ∧ c.val < 0xDD00 then some 1 else none
  else if c.val < 0x80 then some 1
  else if c.val < 0x800 then some 2
  else if c.val < 0x10000 then some 3
  else some 4

namespace Text

/-- Whether a text can be handed over as a path. -/
def isEncodable (t : Text) : Bool := t.all fun c ↦ c.pathBytes?.isSome

def pathBytes (t : Text) : Nat := t.foldl (fun count c ↦ count + c.pathBytes?.getD 0) 0

/-- Why a text cannot be handed over: the first surrogates that stand for no bytes, or else a NUL. -/
def encodingFault (t : Text) : Text :=
  let isSurrogate (c : CodePoint) : Bool := c.isHigh || c.isLow
  match t.findIdx? fun c ↦ isSurrogate c && c.pathBytes?.isNone with
  | none => "embedded null byte"
  | some first =>
    let run : Text := (t.drop first).takeWhile isSurrogate
    let which : Text := if run.length = 1 then ofString "character " ++ run.quoted ++ " in position "
      else "characters in position "
    let last : Text := if run.length = 1 then [] else ofString "-" ++ ofInt (first + run.length - 1)
    ofString "'utf-8' codec can't encode " ++ which ++ ofInt first ++ last ++
      ofString ": surrogates not allowed"

end Text

/-- Entries by place, and the place that relative paths start from. -/
structure FileTree where
  current : List Text
  entries : Table (List Text) Entry
  /-- The places where nothing can be made or written. -/
  denied : List Text → Bool := fun _ ↦ false
  /-- The most bytes that a name may have. -/
  nameLimit : Nat := 255
  /-- The most bytes that a path may have. -/
  pathLimit : Nat := 4095

namespace FileTree

def separator : CodePoint := CodePoint.ofChar '/'

def here : Text := "."

def parent : Text := ".."

/-- The components of a path that lead somewhere. -/
def components (path : Text) : List Text :=
  (Text.splitAt separator path).filter fun piece ↦ piece ≠ [] ∧ piece ≠ here

/-- The slashes that make a path absolute: exactly two are kept, and more than two count as one. -/
def rootSlashes (path : Text) : Text :=
  match (path.takeWhile (· == separator)).length with
  | 0 => []
  | 2 => [separator, separator]
  | _ => [separator]

/-- A path with single slashes. -/
def spelled (slashes : Text) (pieces : List Text) : Text :=
  match slashes, pieces with
  | [], [] => here
  | slashes, pieces => slashes ++ Text.join [separator] pieces

/-- A path with single slashes and without dots that lead nowhere. -/
def shown (path : Text) : Text := spelled (rootSlashes path) (components path)

/-- The path that a path is in, as shown. -/
def shownAbove (path : Text) : Text := spelled (rootSlashes path) (components path).dropLast

/-- What is at a place; the root and the current directory are always there. -/
def entry? (tree : FileTree) (place : List Text) : Option Entry :=
  if place.isPrefixOf tree.current then some .directory else tree.entries.get? place

def isDirectory (tree : FileTree) (place : List Text) : Bool :=
  match tree.entry? place with
  | some .directory => true
  | _ => false

/-- The place that a path starts from. -/
def start (tree : FileTree) (path : Text) : List Text :=
  if (rootSlashes path).isEmpty then tree.current else []

/-- The place that a component leads to. -/
def step (place : List Text) (piece : Text) : List Text :=
  if piece = parent then place.dropLast else place ++ [piece]

/-- Follows a component from a directory. -/
def follow? (tree : FileTree) (place : List Text) (piece : Text) : Option (List Text) :=
  if tree.isDirectory place then some (step place piece) else none

/-- The place of a path: every component but the last has to be a directory. -/
def locate? (tree : FileTree) (path : Text) : Option (List Text) :=
  if (shown path).isEncodable then (components path).foldlM tree.follow? (tree.start path) else none

/-- Whether some component is too long that is looked for in a directory. -/
def meetsLongName (tree : FileTree) (place : List Text) : List Text → Bool
  | [] => false
  | piece :: rest =>
    tree.isDirectory place &&
      (tree.nameLimit < piece.pathBytes || tree.meetsLongName (step place piece) rest)

/-- Whether it cannot be said if there is something at a path, because a name or all of it is too
long. -/
def isTooLong (tree : FileTree) (path : Text) : Bool :=
  (shown path).isEncodable &&
    (tree.pathLimit < (shown path).pathBytes ||
      tree.meetsLongName (tree.start path) (components path))

/-- The absolute path of a place. -/
def absolute (place : List Text) : Text :=
  separator :: Text.join [separator] place

/-- The files below a place, by their components from there. -/
def filesBelow (tree : FileTree) (place : List Text) : List (List Text × ByteArray) :=
  tree.entries.filterMap fun (path, entry) ↦
    match entry with
    | .file content _ =>
      if place.isPrefixOf path && place.length < path.length then
        some (path.drop place.length, content)
      else none
    | .directory => none

/-- The text of a file. -/
def text? (tree : FileTree) (place : List Text) : Option String :=
  match tree.entry? place with
  | some (.file content _) => String.fromUTF8? content
  | _ => none

/-! ## Saving a file -/

/-- Makes directories at some places. -/
def makeDirectories (tree : FileTree) (places : List (List Text)) : FileTree :=
  let entries := places.foldl (fun entries place ↦ Table.put place .directory entries) tree.entries
  { tree with entries }

def writeFile (tree : FileTree) (place : List Text) (content : ByteArray) : FileTree :=
  { tree with entries := Table.put place (.file content none) tree.entries }

/-- Whether something new can be made at a place. -/
def admits (tree : FileTree) (place : List Text) : Bool :=
  !tree.denied place && place.getLast?.all fun name ↦ name.pathBytes ≤ tree.nameLimit

/-- How far a path has been followed: the directories made on the way, and the place reached. -/
structure Way where
  made : List (List Text)
  place : List Text

/-- Follows a component into a directory, which is made if nothing is there. Otherwise the way ends. -/
def enter (tree : FileTree) (way : Way) (piece : Text) : Except Way Way :=
  let next := step way.place piece
  if piece = parent then .ok { way with place := next }
  else
    match FileTree.entry? (tree.makeDirectories way.made) next with
    | some .directory => .ok { way with place := next }
    | some (.file _ _) => .error way
    | none => if tree.admits next then .ok ⟨way.made ++ [next], next⟩ else .error way

/-- The way into the directory that a path is in. -/
def wayInto (tree : FileTree) (path : Text) : Except Way Way :=
  (components path).dropLast.foldlM tree.enter ⟨[], tree.start path⟩

/-- Whether a file can be written under a name at the end of a way. -/
def takesFile (tree : FileTree) (way : Way) (name : Text) : Bool :=
  let place := step way.place name
  name ≠ parent && !(tree.makeDirectories way.made).isDirectory place && tree.admits place

/-- What becomes of a file to be saved. -/
inductive Saving where
  /-- The file is written at a place once some directories are made. -/
  | written (made : List (List Text)) (place : List Text)
  /-- Some directories are made, but the file cannot be written. -/
  | failed (made : List (List Text))
  /-- A path cannot be handed over: that of the file, or that of the directory it is in. -/
  | unencodable (path : Text)

/-- Saves a file at a path. The directory that it is in comes first. -/
def saving (tree : FileTree) (path : Text) : Saving :=
  if !(shownAbove path).isEncodable then .unencodable (shownAbove path)
  else if tree.pathLimit < (shownAbove path).pathBytes then .failed []
  else
    match tree.wayInto path with
    | .error way => .failed way.made
    | .ok way =>
      if !(shown path).isEncodable then .unencodable (shown path)
      else
        match (components path).getLast? with
        | none => .failed way.made
        | some name =>
          if (shown path).pathBytes ≤ tree.pathLimit ∧ tree.takesFile way name then
            .written way.made (step way.place name)
          else .failed way.made

end FileTree

end ClassScript
