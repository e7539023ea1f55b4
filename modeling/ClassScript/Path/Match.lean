import ClassScript.Path.Pattern

/-!
# Matching paths against patterns

A pattern matches a path whole, or it matches a directory that the path lies in. Where both are
possible, stars prefer to take as much of the path as they can, and that decides which of the two it
is. In a list of patterns the last whole match decides, and without one the last directory match.

No `**` reaches over a line feed, and a path may end in one that the pattern does not mention.
-/

namespace ClassScript.Path

/-- How a pattern matches a path. -/
inductive Strength where
  /-- It matches a directory that the path lies in. -/
  | directory
  | whole
deriving DecidableEq

def slash : CodePoint := CodePoint.ofChar '/'

def lineFeed : CodePoint := CodePoint.ofChar '\n'

/-- What is left of a text after some of the leading characters that satisfy `p`, the least first. -/
def remainders (p : CodePoint → Bool) : Text → List Text
  | [] => [[]]
  | c :: rest => if p c then remainders p rest ++ [c :: rest] else [c :: rest]

def Item.remainders (item : Item) (t : Text) : List Text :=
  match item, t with
  | .many, t => Path.remainders (· != slash) t
  | .one, c :: rest => if c = slash then [] else [rest]
  | .literal d, c :: rest => if c = d then [rest] else []
  | .set negated ranges, c :: rest =>
    if ranges.any (fun range ↦ range.1 ≤ c && c ≤ range.2) = negated then [] else [rest]
  | _, [] => []

def globRemainders : List Item → Text → List Text
  | [], t => [t]
  | item :: items, t => (item.remainders t).flatMap (globRemainders items)

/-- What is left of a text after directories, each with its slash, or after nothing. -/
def afterDirectories (t : Text) : List Text :=
  ((remainders (· != lineFeed) t).dropLast.filterMap fun left ↦
    match left with
    | c :: rest => if c = slash then some rest else none
    | [] => none) ++ [t]

/-- What is left of a text after directories, each with a slash before it, or after nothing. -/
def afterSubdirectories (t : Text) : List Text :=
  match t with
  | c :: rest =>
    if c = slash then (remainders (· != lineFeed) rest).dropLast ++ [t] else [t]
  | [] => [t]

namespace Segment

/-- What is left of a text after a segment that stands for one name. -/
def remainders (segment : Segment) (t : Text) : List Text :=
  match segment with
  | .deep => []
  | .name => globRemainders [.one, .many] t
  | .glob items => globRemainders items t

end Segment

/-- The end of a pattern: a slash, with which the path goes on, or the end of the path. -/
def ending (t : Text) : Option Strength :=
  match t with
  | [] => some .whole
  | c :: rest =>
    if c = slash then some .directory
    else if c = lineFeed ∧ rest = [] then some .whole
    else none

/-- Matches the segments after the first name. -/
def matchRest (strength : Strength) (segments : List Segment) (t : Text) : Option Strength :=
  match segments with
  | [] => ending t
  | [.deep] => if t.head? = some slash then some strength else none
  | .deep :: more => (afterSubdirectories t).findSome? (matchRest strength more)
  | segment :: more =>
    match t with
    | c :: rest =>
      if c = slash then (segment.remainders rest).findSome? (matchRest strength more) else none
    | [] => none

namespace Pattern

/-- The strength of a match of `**` at the end. -/
def deepStrength (pattern : Pattern) : Strength :=
  if pattern.directory then .directory else .whole

/-- How a pattern matches a path, if it does. -/
def strength? (pattern : Pattern) (path : Text) : Option Strength :=
  match pattern.segments with
  | [] => none
  | [.deep] =>
    if pattern.directory then if slash ∈ path then some .directory else none
    else if path.isEmpty then none
    else some .whole
  | [.deep, .name] => if path.isEmpty then none else some .whole
  | [.deep, .name, .deep] => if slash ∈ path then some pattern.deepStrength else none
  | .deep :: segment :: more =>
    (afterDirectories path).findSome? fun t ↦
      (segment.remainders t).findSome? (matchRest pattern.deepStrength more)
  | segment :: more =>
    (segment.remainders path).findSome? (matchRest pattern.deepStrength more)

end Pattern

/-- A path as patterns see it: without one slash, or one `./`, at its start. -/
def relative (path : Text) : Text :=
  match path with
  | c :: d :: rest =>
    if c = slash then d :: rest
    else if c = CodePoint.ofChar '.' ∧ d = slash then rest
    else path
  | [c] => if c = slash then [] else path
  | [] => []

/-- The patterns of a list; texts that mean nothing are left out. -/
def readPatterns (texts : List Text) : Except PatternFault (List Pattern) := do
  return (← texts.mapM Pattern.read).filterMap id

/-- Whether a list of patterns matches a path. -/
def isMatch (patterns : List Pattern) (path : Text) : Bool :=
  let last (strength : Strength) :=
    patterns.reverse.find? fun pattern ↦ pattern.strength? (relative path) == some strength
  match last .whole <|> last .directory with
  | some pattern => !pattern.negated
  | none => false

end ClassScript.Path
