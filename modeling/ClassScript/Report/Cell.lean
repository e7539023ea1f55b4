import ClassScript.Text.Width

/-!
# Text in columns

A cell shows a text within a fixed number of columns. Lines break between words; a word that is wider
than the cell starts a line of its own and is cut wherever the cell is full. Line feeds in the text
start new lines, tabs reach to the next multiple of eight columns, and characters that would move the
cursor otherwise are left out.
-/

namespace ClassScript.Report

def blank : CodePoint := CodePoint.ofChar ' '

def blanks (count : Nat) : Text := List.replicate count blank

/-- The words of a text, each with the blanks after it, and the first with those before it. -/
def words (t : Text) : List Text :=
  match _h : t.dropWhile CodePoint.isBlank with
  | [] => []
  | c :: rest =>
    let inner := rest.takeWhile (fun d ↦ !d.isBlank)
    let after := rest.dropWhile (fun d ↦ !d.isBlank)
    (t.takeWhile CodePoint.isBlank ++ c :: inner ++ after.takeWhile CodePoint.isBlank) ::
      words (after.dropWhile CodePoint.isBlank)
termination_by t.length
decreasing_by
  have h₁ := (List.dropWhile_sublist (l := t) CodePoint.isBlank).length_le
  have h₂ := (List.dropWhile_sublist (l := rest) (fun d ↦ !d.isBlank)).length_le
  have h₃ := (List.dropWhile_sublist (l := rest.dropWhile (fun d ↦ !d.isBlank))
    CodePoint.isBlank).length_le
  rw [_h] at h₁
  simp only [List.length_cons] at h₁
  omega

/-- Cuts a text into pieces that fit the width, each as long as possible; `piece` is the one being
filled. -/
def chopFrom (width : Nat) (piece : Text) : Text → List Text
  | [] => [piece]
  | c :: rest =>
    if piece.width + c.width > width then piece :: chopFrom width [c] rest
    else chopFrom width (piece ++ [c]) rest

def chop (width : Nat) (t : Text) : List Text := chopFrom width [] t

/-- Lines being filled with words: the full ones, the current one, and the columns it takes up. -/
structure Filling where
  full : List Text
  current : Text
  columns : Nat

namespace Filling

def empty : Filling := ⟨[], [], 0⟩

def isEmpty (filling : Filling) : Bool := filling.full.isEmpty && filling.current.isEmpty

/-- The full lines once the current one is closed; nothing is closed at the start. -/
def close (filling : Filling) : List Text :=
  if filling.isEmpty then [] else filling.full ++ [filling.current]

/-- Puts in the next word. Blanks at the end of a word may stand outside the width. -/
def add (width : Nat) (filling : Filling) (word : Text) : Filling :=
  if filling.columns + (Text.trimRight word).width ≤ width then
    { filling with current := filling.current ++ word, columns := filling.columns + word.width }
  else if (Text.trimRight word).width > width then
    let pieces := chop width word
    let last := pieces.getLast?.getD []
    ⟨filling.close ++ pieces.dropLast, last, last.width⟩
  else if filling.columns ≠ 0 ∧ filling.isEmpty = false then
    ⟨filling.close, word, word.width⟩
  else { filling with current := filling.current ++ word }

def lines (filling : Filling) : List Text := filling.full ++ [filling.current]

end Filling

/-- Breaks a text without line feeds into lines. -/
def breakLine (width : Nat) (t : Text) : List Text :=
  match words t with
  | [] => [t]
  | words => (words.foldl (Filling.add width) .empty).lines

def tabSize : Nat := 8

/-- Replaces tabs by blanks up to the next multiple of eight columns. -/
def expandTabs (t : Text) : Text :=
  (t.foldl (fun (state : Text × Nat) c ↦
    if c = CodePoint.ofChar '\t' then
      let count := tabSize - state.2 % tabSize
      (state.1 ++ blanks count, state.2 + count)
    else (state.1 ++ [c], state.2 + c.width)) ([], 0)).1

/-- Leaves out bell, backspace, vertical tab, form feed and carriage return. -/
def visible (t : Text) : Text :=
  t.filter fun c ↦ !(c.val == 7 || c.val == 8 || c.val == 11 || c.val == 12 || c.val == 13)

/-- The longest beginning that fits the width. -/
def fitting (width : Nat) : Text → Text
  | [] => []
  | c :: rest => if c.width ≤ width then c :: fitting (width - c.width) rest else []

/-- A line of exactly the given width, its text at the left. -/
def leftAligned (width : Nat) (t : Text) : Text :=
  let cut := fitting width t
  cut ++ blanks (width - cut.width)

/-- A line of exactly the given width, its text at the right. -/
def rightAligned (width : Nat) (t : Text) : Text :=
  let cut := fitting width (Text.trimRight t)
  blanks (width - cut.width) ++ cut

/-- The lines of a cell. -/
def cellLines (width : Nat) (right : Bool) (t : Text) : List Text :=
  ((Text.splitAt (CodePoint.ofChar '\n') (visible t)).flatMap fun line ↦
    breakLine width (expandTabs line)).map
    (if right then rightAligned width else leftAligned width)

end ClassScript.Report
