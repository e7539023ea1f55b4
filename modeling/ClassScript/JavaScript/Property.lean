import ClassScript.JavaScript.Function

/-!
# Properties of objects

The members of an object literal are pairs of a key and a value, methods, names that stand for
themselves, and spreads. Between commas a member may be missing.
-/

namespace ClassScript.JavaScript

/-- The words that are never names of variables. -/
def reservedWords : List (List Char) :=
  ["break", "case", "catch", "class", "const", "continue", "debugger", "default", "delete", "do",
    "else", "export", "extends", "false", "finally", "for", "function", "if", "import", "in",
    "instanceof", "new", "null", "return", "super", "switch", "this", "throw", "true", "try",
    "typeof", "var", "void", "while", "with"].map String.toList

def isReserved (word : List Char) : Bool := reservedWords.contains word

namespace Reader

/-- Whether the name of a property starts here. -/
def startsPropertyName (cs : List Char) : Bool :=
  match cs with
  | [] => false
  | c :: _ =>
    isQuote c || c == '[' || (Lexeme.name? cs).isSome || (Lexeme.privateName? cs).isSome ||
      (Lexeme.number? cs).isSome

/-- The name of a property: a word, a private name, a string, a number, or computed. -/
def propertyName (rules : Rules) : Reader Node := do
  let cs ← rest
  let start ← position
  match cs with
  | '[' :: _ =>
    expect "["
    let before ← gap
    let key ← rules.read (.assignment .inner)
    let after ← operandGap
    expect "]"
    node .computedKey start (before ++ key :: after)
  | _ =>
    if (cs.head?.map isQuote).getD false then string rules
    else
      match Lexeme.name? cs, Lexeme.privateName? cs, Lexeme.number? cs with
      | some split, _, _ => leaf .propertyIdentifier split
      | none, some split, _ => leaf .privateIdentifier split
      | none, none, some split => leaf .number split
      | none, none, none => fail

/-- The given word if it comes next as a modifier, that is in front of the name of a property. -/
def modifier? (word : String) (starAllowed : Bool) : Reader (Option Lexeme.Split) := do
  match ← word? with
  | some split =>
    let after := (((← get).cursor.past split).pastTrivia true []).1.rest
    if split.1 == word.toList && (startsPropertyName after || (starAllowed && after.head? == some '*'))
    then return some split
    else return none
  | none => return none

/-- The comments after the modifiers of a method, or `none` when it has no modifiers. -/
def methodModifiers : Reader (Option (List Node)) := do
  let async ← match ← modifier? "async" true with
    | some split => do
      take split
      pure (some (← gap))
    | none => pure none
  let kind ← match ← modifier? "get" false, ← modifier? "set" false with
    | some split, _ | none, some split => do
      take split
      pure (some (← gap))
    | none, none =>
      if ← at? "*" then do
        expect "*"
        pure (some (← gap))
      else pure none
  match async, kind with
  | none, none => return none
  | _, _ => return some (async.getD [] ++ kind.getD [])

/-- Three dots and what they spread. -/
def spread (rules : Rules) : Reader Node := do
  let start ← position
  expect "..."
  let before ← gap
  let value ← rules.read (.assignment .inner)
  node .spreadElement start (before ++ [value])

/-- One member of an object literal. -/
def member (rules : Rules) : Reader Node := do
  let start ← position
  if ← at? "..." then spread rules
  else
    match ← methodModifiers with
    | some before =>
      let name ← propertyName rules
      let after ← gap
      method rules start (before ++ name.withRole .name :: after)
    | none =>
      let key ← propertyName rules
      pass
      if ← at? "(" then
        let between ← release
        method rules start (key.withRole .name :: between)
      else if ← at? ":" then
        let before ← release
        expect ":"
        let after ← gap
        let value ← rules.read (.assignment .inner)
        node .pair start (key.withRole .key :: before ++ after ++ [value.withRole .value])
      else if key.kind = .propertyIdentifier && !isReserved key.text then
        if ← at? "=" then
          let before ← release
          let equals ← position
          modify fun s ↦ { s with unsettled := s.unsettled <|> some equals }
          expect "="
          let after ← gap
          let value ← rules.read (.assignment .inner)
          node .objectAssignmentPattern start
            (key.withKind .shorthandPattern :: before ++ after ++ [value])
        else return key.withKind .shorthandProperty
      else fail

/-- Whether a member ends with an expression, which an operator could go on. -/
def endsOpen (member : Node) : Bool :=
  member.kind == .pair || member.kind == .spreadElement || member.kind == .objectAssignmentPattern

def memberList (rules : Rules) : (bound : Nat) → List Node → Reader (List Node)
  | 0, _ => fail
  | bound + 1, read => do
    let read := read ++ (← gap)
    if ← at? "\x7d" then return read
    else if ← at? "," then
      expect ","
      memberList rules bound read
    else
      let next ← member rules
      let after ← if endsOpen next then operandGap else gap
      let read := read ++ next :: after
      if ← at? "," then
        expect ","
        memberList rules bound read
      else if ← at? "\x7d" then return read
      else fail

def object (rules : Rules) : Reader Node := do
  let start ← position
  expect "\x7b"
  let read ← memberList rules rules.bound []
  expect "\x7d"
  node .object start read

/-- Expressions and spreads with commas between them up to a closing bracket; any may be missing. -/
def elementList (rules : Rules) (close : String) : (bound : Nat) → List Node → Reader (List Node)
  | 0, _ => fail
  | bound + 1, read => do
    let read := read ++ (← gap)
    if ← at? close then return read
    else if ← at? "," then
      expect ","
      elementList rules close bound read
    else
      let next ← if ← at? "..." then spread rules else rules.read (.assignment .inner)
      let read := read ++ next :: (← operandGap)
      if ← at? "," then
        expect ","
        elementList rules close bound read
      else if ← at? close then return read
      else fail

def array (rules : Rules) : Reader Node := do
  let start ← position
  expect "["
  let read ← elementList rules "]" rules.bound []
  expect "]"
  node .array start read

/-- The arguments of a call in parentheses. -/
def arguments (rules : Rules) : Reader Node := do
  let start ← position
  expect "("
  let read ← elementList rules ")" rules.bound []
  expect ")"
  return (← node .arguments start read).withRole .arguments

end Reader

end ClassScript.JavaScript
