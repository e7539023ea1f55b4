import ClassScript.Text.Numeral
import ClassScript.Text.Quoted
import ClassScript.Text.Utf16
import ClassScript.JavaScript.Node

/-!
# Values of string literals

A string literal is made of plain fragments and escape sequences. Its value is the texts of the
fragments and the decoded escapes one after the other, with surrogates that spell a pair joined. A
numeric escape may name a number that is no code point.
-/

namespace ClassScript.JavaScript

/-- Why an escape sequence denotes no text. -/
inductive EscapeFault where
  /-- The number is no code point. -/
  | outOfRange
  /-- The number does not even fit into 32 bits. -/
  | tooLarge
  /-- The text is no hexadecimal number. -/
  | notHexadecimal (text : Text)
deriving DecidableEq

namespace EscapeFault

def message : EscapeFault → Text
  | outOfRange => "chr() arg not in range(0x110000)"
  | tooLarge => "Python int too large to convert to C int"
  | notHexadecimal text =>
    Text.ofString "invalid literal for int() with base 16: " ++ text.quoted.take 200

end EscapeFault

namespace Escape

/-- The text of one code point given by its number. -/
def codePoint (n : Int) : Except EscapeFault Text :=
  if n < -0x80000000 ∨ 0x7FFFFFFF < n then .error .tooLarge
  else if h : n.toNat < 0x110000 then if n < 0 then .error .outOfRange else .ok [⟨n.toNat, h⟩]
  else .error .outOfRange

def hexadecimal (t : Text) : Except EscapeFault Text :=
  match Numeral.read? 16 t with
  | some n => codePoint n
  | none => .error (.notHexadecimal t)

/-- The characters that a single letter stands for after a backslash. -/
def simple? (c : CodePoint) : Option CodePoint :=
  if c = CodePoint.ofChar 'b' then some (CodePoint.ofChar '\x08')
  else if c = CodePoint.ofChar 'f' then some (CodePoint.ofChar '\x0c')
  else if c = CodePoint.ofChar 'n' then some (CodePoint.ofChar '\n')
  else if c = CodePoint.ofChar 'r' then some (CodePoint.ofChar '\r')
  else if c = CodePoint.ofChar 't' then some (CodePoint.ofChar '\t')
  else if c = CodePoint.ofChar 'v' then some (CodePoint.ofChar '\x0b')
  else none

def isLineEnd (c : CodePoint) : Bool :=
  c.val == 0x0A || c.val == 0x0D || c.val == 0x2028 || c.val == 0x2029

def isBrace (c : CodePoint) : Bool := c.val == 0x7B || c.val == 0x7D

def isOctal (c : CodePoint) : Bool := 0x30 ≤ c.val && c.val ≤ 0x37

/-- The number that octal digits spell. -/
def octal (digits : Text) : Nat := digits.foldl (fun n c ↦ n * 8 + (c.val - 0x30)) 0

/-- What an escape sequence stands for, given what comes after its backslash. An escaped line break
stands for nothing, and a character without a meaning of its own for itself. -/
def decodeBody (body : Text) : Except EscapeFault Text :=
  match body with
  | [] => .ok []
  | c :: rest =>
    if rest.isEmpty && (simple? c).isSome then .ok (simple? c).toList
    else if isLineEnd c then .ok []
    else if c = CodePoint.ofChar 'x' && rest.length == 2 then hexadecimal rest
    else if c = CodePoint.ofChar 'u' && !rest.isEmpty then
      hexadecimal ((rest.dropWhile isBrace).reverse.dropWhile isBrace).reverse
    else if body.all isOctal then codePoint (octal body)
    else .ok body

/-- What an escape sequence stands for. Its first character, the backslash, is not looked at. -/
def decode (sequence : Text) : Except EscapeFault Text := decodeBody (sequence.drop 1)

end Escape

namespace Node

/-- The text that one piece of a string literal adds to its value. -/
def pieceValue (piece : Node) : Except EscapeFault Text :=
  match piece.kind with
  | .escapeSequence token => Escape.decode (Text.ofChars token.text)
  | .comment => .ok []
  | _ => .ok (Text.ofChars piece.text)

/-- The value of a string literal. -/
def stringValue (node : Node) : Except EscapeFault Text := do
  let pieces ← node.children.mapM pieceValue
  return Text.joinPairs pieces.flatten

end Node

end ClassScript.JavaScript
