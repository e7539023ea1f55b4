import ClassScript.Analysis.Tree
import ClassScript.Analyzer
import ClassScript.Report.Cell
import ClassScript.Report.Console

/-!
# Reports

As tables, each module has a line with its name and the place it was read from, and under it a table
with one row for each class: its name, its superclass, its aspects, and how many nested classes and
remarks it has. A console reads all of them, and there is no report if it refuses one.

As JSON, a report holds the analysis of all modules and the scripts that could not be analyzed.
-/

namespace ClassScript

def ErrorReport.toJson (report : ErrorReport) : Json :=
  .object [("path", report.path), ("module_name", report.moduleName),
    ("class_name", report.className), ("kind", report.kind), ("message", report.message)]

namespace Report

def payload (modules : ArchiveAnalysis) (reports : List ErrorReport) : Json :=
  .object [("analysis", modules.toJson), ("errors", .list (reports.map ErrorReport.toJson))]

/-! ## Tables -/

structure Column where
  title : Text
  width : Nat
  right : Bool

def columns : List Column :=
  [⟨"class", 17, false⟩, ⟨"super", 11, false⟩, ⟨"aspects", 28, false⟩, ⟨"nested", 4, true⟩,
    ⟨"remarks", 4, true⟩]

def totalWidth : Nat := 80

/-- A horizontal line through all columns. -/
def ruling (left fill between right : Char) : Text :=
  CodePoint.ofChar left ::
    Text.join [CodePoint.ofChar between]
      (columns.map fun column ↦ List.replicate (column.width + 2) (CodePoint.ofChar fill)) ++
    [CodePoint.ofChar right]

/-- Gives a cell a number of lines, adding empty ones above or below. -/
def stretch (height width : Nat) (bottom : Bool) (lines : List Text) : List Text :=
  let missing := List.replicate (height - lines.length) (blanks width)
  if bottom then missing ++ lines else lines ++ missing

/-- The lines of a row, with an edge between the cells and around them. -/
def rowLines (edge : Char) (bottom : Bool) (cells : List Text) : List Text :=
  let laid := columns.zipWith (fun column cell ↦ cellLines column.width column.right cell) cells
  let height := (laid.map List.length).foldl max 1
  let filled := columns.zipWith (fun column lines ↦ stretch height column.width bottom lines) laid
  (List.range height).map fun row ↦
    CodePoint.ofChar edge ::
      Text.join [CodePoint.ofChar edge]
        (filled.map fun lines ↦ blank :: lines.getD row [] ++ [blank]) ++
      [CodePoint.ofChar edge]

def classCells (className : Text) (analysis : ClassAnalysis) : List Text :=
  [className, analysis.facts.superclass.getD (Text.ofString "None"), analysis.aspectSummary,
    Text.ofInt analysis.nested.length, Text.ofInt analysis.remarkCount]

/-- Rows with a line between neighbours. -/
def separated : List (List Text) → List Text
  | [] => []
  | [row] => row
  | row :: rest => row ++ ruling '├' '─' '┼' '┤' :: separated rest

/-- What a console shows of the cells of some rows. It reads one column after the other. -/
def readRows (console : Console) (rows : List (List Text)) : Except Text (List (List Text)) := do
  let shown ← (List.range columns.length).mapM fun index ↦
    rows.mapM fun row ↦ console.read (row.getD index [])
  return (List.range rows.length).map fun row ↦ shown.map fun cells ↦ cells.getD row []

def tableLines (console : Console) (classes : ModuleAnalysis) : Except Text (List Text) := do
  let rows ← readRows console (classes.map fun entry ↦ classCells entry.1 entry.2)
  return ruling '┏' '━' '┳' '┓' :: rowLines '┃' true (columns.map Column.title) ++
    ruling '┡' '━' '╇' '┩' :: separated (rows.map (rowLines '│' false)) ++
    [ruling '└' '─' '┴' '┘']

/-- A title that fits with a dash and a blank on each side; a longer one ends in an ellipsis. -/
def shortened (title : Text) : Text :=
  let limit := totalWidth - 4
  if title.width ≤ limit then title
  else leftAligned (limit - 1) title ++ [CodePoint.ofChar '…']

/-- A line of dashes with a title in its middle. -/
def titleLine (given : Text) : Text :=
  let plain := (visible given).map fun c ↦ if c = CodePoint.ofChar '\n' then blank else c
  let title := shortened (expandTabs plain)
  let dashes (count : Nat) : Text := List.replicate count (CodePoint.ofChar '-')
  let left := (totalWidth - title.width) / 2 - 1
  dashes left ++ blank :: title ++ blank :: dashes (totalWidth - left - title.width - 2)

def titleSeparator : Text := " :: "

def title (place moduleName : Text) : Text := moduleName ++ titleSeparator ++ place

def moduleLines (console : Console) (place moduleName : Text) (classes : ModuleAnalysis) :
    Except Text (List Text) := do
  let shown ← console.read (title place moduleName)
  return titleLine shown :: (← tableLines console classes)

/-- The tables of all modules read from a place, or why the console refuses them. -/
def tables (console : Console) (place : Text) (modules : ArchiveAnalysis) : Except Text Text := do
  let lines ← modules.mapM fun entry ↦ moduleLines console place entry.1 entry.2
  return lines.flatten.flatMap fun line ↦ line ++ [CodePoint.ofChar '\n']

end Report

end ClassScript
