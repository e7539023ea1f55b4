import ClassScript.JavaScript.Reader

/-!
# String and template literals

A string is made of plain fragments and escape sequences, a template also of substitutions, which
hold expressions. A string ends on the line it starts on unless an escape breaks the line.
-/

namespace ClassScript.JavaScript.Reader

/-- The fragments and escapes of a string up to its closing quote, put in front of those given. -/
def stringPieces (quote : Char) : (bound : Nat) → List Node → Reader (List Node)
  | 0, _ => fail
  | bound + 1, pieces => do
    let cs ← rest
    match cs with
    | [] => fail
    | c :: _ =>
      if c = quote then return pieces
      else if c = '\\' then
        match h : Lexeme.escape? cs with
        | some split =>
          let piece ← leaf (.escapeSequence ⟨split.1, cs, split.2, h⟩) split
          stringPieces quote bound (piece :: pieces)
        | none => fail
      else if c = '\n' ∨ c = '\r' then fail
      else stringPieces quote bound ((← leaf .stringFragment (Lexeme.fragment quote cs)) :: pieces)

def isQuote (c : Char) : Bool := c == '\x27' || c == '\x22'

/-- A string in either kind of quotes. A string without an end is refused where it starts. -/
def string (rules : Rules) : Reader Node := do
  let start ← position
  match ← rest with
  | quote :: _ =>
    if isQuote quote then
      try
        expect (String.singleton quote)
        let pieces ← stringPieces quote rules.bound []
        expect (String.singleton quote)
        node .string start pieces.reverse
      catch _ => refuse start
    else fail
  | [] => fail

/-- The pieces of a template up to its closing backquote, put in front of those given. -/
def templatePieces (rules : Rules) : (bound : Nat) → List Node → Reader (List Node)
  | 0, _ => fail
  | bound + 1, pieces => do
    let cs ← rest
    match cs with
    | [] => fail
    | '\x60' :: _ => return pieces
    | '\\' :: _ =>
      match h : Lexeme.escape? cs with
      | some split =>
        let piece ← leaf (.escapeSequence ⟨split.1, cs, split.2, h⟩) split
        templatePieces rules bound (piece :: pieces)
      | none => fail
    | '$' :: '\x7b' :: _ => do
      let start ← position
      expect "$\x7b"
      let before ← gap
      let value ← rules.read (.expression .inner)
      let after ← operandGap
      expect "\x7d"
      let substitution ← node .templateSubstitution start (before ++ value :: after)
      templatePieces rules bound (substitution :: pieces)
    | _ => templatePieces rules bound ((← leaf .stringFragment (Lexeme.templateFragment cs)) :: pieces)

def template (rules : Rules) : Reader Node := do
  let start ← position
  expect "\x60"
  let pieces ← templatePieces rules rules.bound []
  expect "\x60"
  node .templateString start pieces.reverse

end ClassScript.JavaScript.Reader
