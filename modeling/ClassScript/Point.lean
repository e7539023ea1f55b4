import ClassScript.Position
import ClassScript.Text.Utf16
import ClassScript.Text.Utf8

/-!
# Points in an encoded source

A point is a row, counted from zero, and a column, counted in bytes. Its position is found in the
lines of the encoded source: what stands before it on its line is decoded, and the UTF-16 units of
that are counted.
-/

namespace ClassScript

structure Point where
  row : Nat
  column : Nat
deriving DecidableEq

namespace Point

/-- The pieces between the line feeds among the bytes; one more than there are line feeds. -/
def splitLines : List UInt8 → List (List UInt8)
  | [] => [[]]
  | b :: rest =>
    if b = 0x0A then [] :: splitLines rest
    else
      match splitLines rest with
      | [] => [[b]]
      | line :: lines => (b :: line) :: lines

/-- The encoded lines of a source. -/
def lines (source : List Char) : List (List UInt8) := splitLines (Utf8.encode source)

/-- The bytes before a point on its line; none if there is no such line. -/
def before (lines : List (List UInt8)) (point : Point) : List UInt8 :=
  (lines[point.row]?.getD []).take point.column

/-- The position of a point. -/
def position (lines : List (List UInt8)) (point : Point) : Position :=
  ⟨point.row + 1, (Utf8.decodeReplacing (point.before lines)).units.length⟩

end Point

end ClassScript
