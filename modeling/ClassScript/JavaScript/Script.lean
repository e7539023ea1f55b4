import ClassScript.JavaScript.Grammar
import ClassScript.Point

/-!
# Scripts

A script is a source text with its syntax tree. The spans of the tree lie properly: a node is not
empty, its children come one after the other inside it, and what stands in brackets starts after the
opening one. That the readers build such trees is an assumption on them, which is not proved. It is part
of what a script is, and a tree for which it failed would not be taken for one.
-/

namespace ClassScript.JavaScript

namespace Node

/-- The kinds of nodes that start with an opening bracket. -/
def isBracketed (kind : Kind) : Bool := kind == .object || kind == .arguments || kind == .block

mutual

/-- Whether the spans of a tree are nested and in order, and its comments have no parts. -/
def isOrderly : Node → Bool
  | mk kind _ span _ children =>
    decide (span.start < span.stop) && (kind != .comment || children.isEmpty) &&
      (!isBracketed kind || children.all fun child ↦ decide (span.start < child.start)) &&
      areOrderly span.start span.stop children

/-- Whether orderly trees lie one after the other between two positions. -/
def areOrderly (start stop : Position) : List Node → Bool
  | [] => decide (start ≤ stop)
  | node :: rest =>
    decide (start ≤ node.start) && isOrderly node && areOrderly node.stop stop rest

end

end Node

/-- A comment without its delimiters. -/
structure Comment where
  text : Text
  span : Span

namespace Comment

/-- Drops the two slashes of a line comment, or the delimiters of a block comment. A block comment
that is not closed loses its opening only. -/
def stripDelimiters (t : Text) : Text :=
  if (Text.ofString "//").isPrefixOf t then t.drop 2
  else if (Text.ofString "/*").isPrefixOf t then
    if (Text.ofString "*/").isSuffixOf t && t.length ≥ 4 then (t.drop 2).take (t.length - 4)
    else t.drop 2
  else t

def ofNode (node : Node) : Comment := ⟨stripDelimiters (Text.ofChars node.text), node.span⟩

end Comment

structure Script where
  source : List Char
  root : Node
  /-- The spans below the root are nested and in order; this is assumed of the readers. -/
  orderly : Node.areOrderly root.start root.stop root.children = true

namespace Script

/-- Where reading failed: the line of the first token that fits nowhere. When the text ends too early
it is the line on which the text starts. -/
def faultLine (source : List Char) : Fault → Int
  | .unexpected position => position.line
  | .ended => (Cursor.mk source .origin).pastSpace.position.line

/-- Reads a script, or gives the line near which it cannot be read. The last case does not occur if the
readers are as assumed. -/
def read (source : List Char) : Except Int Script :=
  let start : Reading := ⟨⟨source, .origin⟩, .origin, [], false, none⟩
  match (Reader.program (8 * source.length + 64)).run start with
  | .error fault => .error (faultLine source fault)
  | .ok (children, _) =>
    let root := Node.mk .program none ⟨.origin, Position.origin.after source⟩ [] children
    if h : Node.areOrderly root.start root.stop root.children = true then .ok ⟨source, root, h⟩
    else .error 1

/-- The encoded lines of the source; the last one need not be ended. -/
def lines (script : Script) : List (List UInt8) := Point.lines script.source

def lineCount (script : Script) : Nat := script.lines.length

/-- The position of a point of the encoded source. -/
def position (script : Script) (point : Point) : Position := point.position script.lines

/-- The characters between two positions of the source. -/
def slice (script : Script) (span : Span) : Text :=
  let step := fun (acc : Position × Text) c ↦
    (acc.1.advance c, if span.start ≤ acc.1 ∧ acc.1 < span.stop then CodePoint.ofChar c :: acc.2
      else acc.2)
  (script.source.foldl step (.origin, [])).2.reverse

/-- All comments in the order of the source. -/
def comments (script : Script) : List Comment :=
  ((Node.walk [script.root]).filter (·.kind == .comment)).map Comment.ofNode

end Script

end ClassScript.JavaScript
