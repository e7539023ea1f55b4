import ClassScript.Text.Quoted

/-!
# Path patterns

Patterns in the manner of ignore files. A pattern is split at its slashes into segments. Within a
segment `*` stands for any characters, `?` for one, and brackets for one of a set; a segment `**`
stands for any directories. A pattern that starts with `!` takes paths back, one that ends with a
slash means directories only, and one without a slash inside matches at any depth.
-/

namespace ClassScript.Path

/-- One part of a segment. -/
inductive Item where
  /-- Any characters but slashes. -/
  | many
  /-- Any one character but a slash. -/
  | one
  | literal (c : CodePoint)
  /-- One character inside the closed ranges, or outside all of them. -/
  | set (negated : Bool) (ranges : List (CodePoint × CodePoint))
deriving DecidableEq

inductive Segment where
  /-- Any directories. -/
  | deep
  /-- A name that is not empty. -/
  | name
  | glob (items : List Item)
deriving DecidableEq

/-- Why the text of a pattern has no segments that can be matched. -/
inductive SegmentFault where
  /-- A set of characters without an end; such a pattern matches nothing. -/
  | unclosedSet
  /-- A backslash with nothing after it. -/
  | danglingEscape
deriving DecidableEq

/-- The ranges that the text of a set stands for. -/
def setRanges : Text → List (CodePoint × CodePoint)
  | a :: dash :: b :: rest =>
    if dash.val = 0x2D then (a, b) :: setRanges rest else (a, a) :: setRanges (dash :: b :: rest)
  | [a, b] => [(a, a), (b, b)]
  | [a] => [(a, a)]
  | [] => []
termination_by t => t.length

/-- The text of a set up to its closing bracket, and what follows. The first character is part of the
set even if it is a bracket. -/
def setBody? (t : Text) : Option (Text × Text) :=
  match t with
  | [] => none
  | first :: rest =>
    match rest.dropWhile (·.val != 0x5D) with
    | _ :: after => some (first :: rest.takeWhile (·.val != 0x5D), after)
    | [] => none

/-- Reads a set after its opening bracket. -/
def set? (t : Text) : Option (Item × Text) :=
  match t with
  | c :: rest =>
    if c.val = 0x21 ∨ c.val = 0x5E then
      (setBody? rest).map fun body ↦ (.set true (setRanges body.1), body.2)
    else (setBody? t).map fun body ↦ (.set false (setRanges body.1), body.2)
  | [] => none

theorem length_setBody {t : Text} {body : Text × Text} (h : setBody? t = some body) :
    body.2.length < t.length := by
  unfold setBody? at h
  split at h
  · simp at h
  · next first rest =>
    have hle := (List.dropWhile_sublist (l := rest) (·.val != 0x5D)).length_le
    split at h
    · next heq =>
      rw [heq] at hle
      cases h
      simp only [List.length_cons] at *
      omega
    · simp at h

theorem length_set {t : Text} {found : Item × Text} (h : set? t = some found) :
    found.2.length < t.length := by
  unfold set? at h
  split at h
  · split at h
    · obtain ⟨body, hbody, rfl⟩ := Option.map_eq_some_iff.1 h
      have := length_setBody hbody
      simp only [List.length_cons]
      omega
    · obtain ⟨body, hbody, rfl⟩ := Option.map_eq_some_iff.1 h
      exact length_setBody hbody
  · simp at h

/-- The parts of a segment. -/
def items (t : Text) : Except SegmentFault (List Item) :=
  match t with
  | [] => .ok []
  | c :: rest =>
    if c.val = 0x5C then
      match rest with
      | [] => .error .danglingEscape
      | d :: rest => do return .literal d :: (← items rest)
    else if c.val = 0x2A then do return .many :: (← items rest)
    else if c.val = 0x3F then do return .one :: (← items rest)
    else if c.val = 0x5B then
      match _h : set? rest with
      | some (set, after) => do return set :: (← items after)
      | none => .error .unclosedSet
    else do return .literal c :: (← items rest)
termination_by t.length
decreasing_by
  · simp only [List.length_cons]
    omega
  · simp
  · simp
  · have := length_set _h
    simp only [List.length_cons] at *
    omega
  · simp

def star : Text := "*"

def doubleStar : Text := "**"

def segment (t : Text) : Except SegmentFault Segment :=
  if t = doubleStar then .ok .deep
  else if t = star then .ok .name
  else do return .glob (← items t)

/-- A range in a set that ends before it starts. -/
def Item.reversed? : Item → Option (CodePoint × CodePoint)
  | .set _ ranges => ranges.find? fun range ↦ range.2 < range.1
  | _ => none

def Segment.reversed? : Segment → Option (CodePoint × CodePoint)
  | .glob items => items.findSome? Item.reversed?
  | _ => none

/-- A pattern that can be matched. -/
structure Pattern where
  /-- Takes paths back. -/
  negated : Bool
  /-- Means directories only. -/
  directory : Bool
  segments : List Segment
deriving DecidableEq

/-- Why a pattern makes no sense. -/
inductive PatternFault where
  /-- There is nothing to match, or a backslash with nothing after it. -/
  | meaningless (pattern : Text)
  | reversedRange (first last : CodePoint)
deriving DecidableEq

/-- What is said of a fault; where a range stands in the pattern is left out. -/
def PatternFault.message : PatternFault → Text
  | meaningless pattern => Text.ofString "Invalid git pattern: " ++ pattern.quoted
  | reversedRange first last =>
    Text.ofString "bad character range " ++ [first, CodePoint.ofChar '-', last]

namespace Pattern

/-- Leaves one of several neighbouring segments `**`. -/
def collapse : List Text → List Text
  | a :: b :: rest =>
    if a = doubleStar ∧ b = doubleStar then collapse (b :: rest) else a :: collapse (b :: rest)
  | short => short

/-- Replaces an empty last segment by `**`. -/
def closeDirectory (pieces : List Text) : List Text :=
  match pieces.getLast? with
  | some [] => pieces.dropLast ++ [doubleStar]
  | _ => pieces

/-- Anchors the pieces of a pattern: a slash at the start binds it to the top, and a single piece
matches at any depth. -/
def anchor (pieces : List Text) : List Text :=
  match pieces with
  | [] :: rest => rest
  | [piece] => if piece = doubleStar then [piece] else [doubleStar, piece]
  | [piece, []] => if piece = doubleStar then [piece, []] else [doubleStar, piece, []]
  | _ => pieces

/-- The text of a pattern without blanks at its end, unless the last of them is escaped. -/
def trimmed (t : Text) : Text :=
  if (Text.ofString "\\ ").isSuffixOf t then t else t.trimRight

/-- Reads the text of a pattern. Blank lines, lines that start with `#`, a lone slash and patterns with
an unclosed set mean nothing. The ranges of sets are looked at last. -/
def read (given : Text) : Except PatternFault (Option Pattern) :=
  let t := trimmed given
  if t.isEmpty || t.head? == some (CodePoint.ofChar '#') || t == Text.ofString "/" then .ok none
  else
    let negated := t.head? == some (CodePoint.ofChar '!')
    let pieces := Text.splitAt (CodePoint.ofChar '/') (if negated then t.drop 1 else t)
    let directory := pieces.getLast? == some []
    match anchor pieces with
    | [] => .error (.meaningless given)
    | anchored =>
      match (collapse (closeDirectory anchored)).mapM segment with
      | .ok segments =>
        match segments.findSome? Segment.reversed? with
        | some (first, last) => .error (.reversedRange first last)
        | none => .ok (some ⟨negated, directory, segments⟩)
      | .error .unclosedSet => .ok none
      | .error .danglingEscape => .error (.meaningless given)

end Pattern

end ClassScript.Path
