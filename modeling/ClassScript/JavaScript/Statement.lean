import ClassScript.JavaScript.Expression

/-!
# Statements

A statement is told by its first word. A function or class with a name is a declaration; without one
it starts an expression. Every other statement that is no block, loop or choice ends with a semicolon,
written or automatic.
-/

namespace ClassScript.JavaScript.Reader

/-- The characters after a lexeme and the blanks and comments that follow it. -/
def aheadOf (split : Lexeme.Split) : Reader (List Char) :=
  return (((← get).cursor.past split).pastTrivia true []).1.rest

/-- Statements up to a closing brace, the end, or a word that starts the next case. -/
def statementList (rules : Rules) (inCase : Bool) : (bound : Nat) → List Node → Reader (List Node)
  | 0, _ => fail
  | bound + 1, read => do
    let read := read ++ (← gap)
    let done := (← rest).isEmpty || (← at? "\x7d") ||
      (inCase && ((← atWord "case") || (← atWord "default")))
    if done then return read
    else statementList rules inCase bound (read ++ [← rules.read .statement])

/-- Statements in braces. An automatic semicolon after the closing brace belongs to the block. -/
def block (rules : Rules) (settled : Bool) : Reader Node := do
  let start ← position
  expect "\x7b"
  let read ← statementList rules false rules.bound []
  expect "\x7d"
  let after ← blockEnd settled
  node .block start (read ++ after)

/-- A condition or subject in parentheses. -/
def condition (rules : Rules) : Reader Node := do
  let start ← position
  expect "("
  let before ← gap
  let value ← rules.read (.expression .inner)
  let after ← operandGap
  expect ")"
  node .parenthesizedExpression start (before ++ value :: after)

def expressionStatement (rules : Rules) : Reader Node := do
  let start ← position
  let value ← rules.read (.expression .statement)
  let comments ← semicolon false
  node .expressionStatement start (value :: comments)

/-- A declared name or pattern and its value, if it has one. -/
def declarator (rules : Rules) (context : Context) : Reader (Node × Bool) := do
  let start ← position
  let target ← rules.read .binding
  let bare ← node .variableDeclarator start [target.withRole .name]
  let s ← get
  let (omitted, _) := if context.ends then s.cursor.seek true s.held else (false, s.cursor, [])
  if omitted then return (bare, true)
  else
    pass
    if ← at? "=" then
      let before ← release
      expect "="
      let after ← gap
      let value ← rules.read (.assignment context)
      let full ← node .variableDeclarator start
        (target.withRole .name :: before ++ after ++ [value.withRole .value])
      return (full, false)
    else return (bare, true)

/-- Further declarators after commas, up to the end of the declaration. The flag says that no operator
could follow the last one. -/
def declaratorList (rules : Rules) (context : Context) :
    (bound : Nat) → List Node → Reader (List Node × Bool)
  | 0, _ => fail
  | bound + 1, read => do
    let (next, settled) ← declarator rules context
    let read := read ++ [next]
    let s ← get
    let (omitted, _) := if context.ends then s.cursor.seek settled s.held else (false, s.cursor, [])
    if omitted then return (read, settled)
    else
      passOperand
      if ← at? "," then
        let before ← release
        expect ","
        let after ← gap
        declaratorList rules context bound (read ++ before ++ after)
      else return (read, settled)

/-- A declaration of variables from its first word on. -/
def bindings (rules : Rules) (split : Lexeme.Split) : Reader Node := do
  let start ← position
  take split
  let before ← gap
  let (read, settled) ← declaratorList rules .statement rules.bound []
  let comments ← semicolon settled
  node .variableDeclaration start (before ++ read ++ comments)

def ifStatement (rules : Rules) : Reader Node := do
  let start ← position
  expect "if"
  let c₁ ← gap
  let test ← condition rules
  let c₂ ← gap
  let consequence ← rules.read .statement
  pass
  if ← atWord "else" then
    let c₃ ← release
    let place ← position
    expect "else"
    let c₄ ← gap
    let alternative ← rules.read .statement
    let clause ← node .elseClause place (c₄ ++ [alternative])
    node .ifStatement start (c₁ ++ test :: c₂ ++ consequence :: c₃ ++ [clause])
  else return .mk .ifStatement none ⟨start, consequence.stop⟩ [] (c₁ ++ test :: c₂ ++ [consequence])

/-- An optional expression and the token that ends it. -/
def optionalExpression (rules : Rules) (close : String) : Reader (List Node) := do
  let before ← gap
  if ← at? close then
    expect close
    return before
  else
    let value ← rules.read (.expression .inner)
    let after ← operandGap
    expect close
    return before ++ value :: after

/-- The rest of a loop over the elements or names of a value, from the word `of` or `in` on. -/
def loopSource (rules : Rules) : Reader (List Node) := do
  let before ← release
  match ← word? with
  | some split =>
    take split
    let after ← gap
    let value ← rules.read (.expression .inner)
    let last ← operandGap
    expect ")"
    return before ++ after ++ value :: last
  | none => fail

/-- The rest of a counting loop's head, after its first semicolon. -/
def loopSteps (rules : Rules) : Reader (List Node) := do
  let test ← optionalExpression rules ";"
  let step ← optionalExpression rules ")"
  return test ++ step

def atLoopSource : Reader Bool := return (← atWord "of") || (← atWord "in")

/-- Whether the word `let` starts a declaration here. -/
def letDeclares (split : Lexeme.Split) : Reader Bool := do
  let after ← aheadOf split
  match after with
  | '[' :: _ | '\x7b' :: _ => return true
  | _ =>
    match Lexeme.name? after with
    | some next => return ["in", "instanceof", "of"].all (·.toList != next.1)
    | none => return false

/-- Whether a declaration of variables starts with the given word. -/
def declares (split : Lexeme.Split) : Reader Bool := do
  match String.ofList split.1 with
  | "var" | "const" => return true
  | "let" => letDeclares split
  | _ => return false

/-- The head of a loop after its opening parenthesis. -/
def loopHead (rules : Rules) : Reader (List Node) := do
  let before ← gap
  if ← at? ";" then
    expect ";"
    return before ++ (← loopSteps rules)
  else
    let unsettled := (← get).unsettled
    let declared ← match ← word? with
      | some split => do pure (if ← declares split then some split else none)
      | none => pure none
    match declared with
    | some split =>
      let start ← position
      take split
      let between ← gap
      let (read, _) ← declaratorList rules .loopHead rules.bound []
      let declaration ← node .variableDeclaration start (between ++ read)
      pass
      if ← atLoopSource then return before ++ declaration :: (← loopSource rules)
      else
        let after ← release
        expect ";"
        return before ++ declaration :: after ++ (← loopSteps rules)
    | none =>
      let place ← position
      let value ← rules.read (.expression .loopHead)
      passOperand
      if ← atLoopSource then
        match value.toTarget? with
        | some target =>
          modify fun s ↦ { s with unsettled }
          return before ++ target :: (← loopSource rules)
        | none => refuse place
      else
        let after ← release
        expect ";"
        return before ++ value :: after ++ (← loopSteps rules)

def forStatement (rules : Rules) : Reader Node := do
  let start ← position
  expect "for"
  let c₁ ← gap
  let c₂ ← if ← atWord "await" then do
      expect "await"
      gap
    else pure []
  expect "("
  let head ← loopHead rules
  let c₃ ← gap
  let body ← rules.read .statement
  node .forStatement start (c₁ ++ c₂ ++ head ++ c₃ ++ [body.withRole .body])

/-- A word, a condition in parentheses, and a statement. -/
def guarded (rules : Rules) (kind : Kind) (word : String) : Reader Node := do
  let start ← position
  expect word
  let before ← gap
  let test ← condition rules
  let between ← gap
  let body ← rules.read .statement
  node kind start (before ++ test :: between ++ [body])

def doStatement (rules : Rules) : Reader Node := do
  let start ← position
  expect "do"
  let c₁ ← gap
  let body ← rules.read .statement
  let c₂ ← gap
  if ← atWord "while" then
    expect "while"
    let c₃ ← gap
    let test ← condition rules
    let bare ← node .doStatement start (c₁ ++ body :: c₂ ++ c₃ ++ [test])
    match ← semicolon? true with
    | some comments => node .doStatement start (c₁ ++ body :: c₂ ++ c₃ ++ test :: comments)
    | none => return bare
  else fail

def catchClause (rules : Rules) : Reader Node := do
  let start ← position
  expect "catch"
  let c₁ ← gap
  let caught ← if ← at? "(" then do
      expect "("
      let before ← gap
      let target ← rules.read .binding
      let inside ← gap
      expect ")"
      let after ← gap
      pure (before ++ target :: inside ++ after)
    else pure []
  let body ← rules.read (.block true)
  node .catchClause start (c₁ ++ caught ++ [body])

def finallyClause (rules : Rules) : Reader Node := do
  let start ← position
  expect "finally"
  let before ← gap
  let body ← rules.read (.block true)
  node .finallyClause start (before ++ [body])

/-- A guarded block with its handlers, both of which may be missing. -/
def tryStatement (rules : Rules) : Reader Node := do
  let start ← position
  expect "try"
  let before ← gap
  let body ← rules.read (.block true)
  pass
  let caught ← if ← atWord "catch" then do
      let between ← release
      let clause ← catchClause rules
      pure (between ++ [clause])
    else pure []
  pass
  let final ← if ← atWord "finally" then do
      let between ← release
      let clause ← finallyClause rules
      pure (between ++ [clause])
    else pure []
  node .tryStatement start (before ++ body :: caught ++ final)

/-- Nodes up to the last that is no comment, and the comments after it. -/
def splitTrailing (nodes : List Node) : List Node × List Node :=
  ((nodes.reverse.dropWhile isTrivia).reverse, (nodes.reverse.takeWhile isTrivia).reverse)

/-- The cases of a choice up to its closing brace. -/
def caseList (rules : Rules) : (bound : Nat) → List Node → Reader (List Node)
  | 0, _ => fail
  | bound + 1, read => do
    let read := read ++ (← gap)
    let start ← position
    if ← at? "\x7d" then return read
    else if ← atWord "case" then
      expect "case"
      let before ← gap
      let value ← rules.read (.expression .inner)
      let after ← operandGap
      expect ":"
      let (body, trailing) := splitTrailing (← statementList rules true rules.bound [])
      let next ← node .switchCase start (before ++ value :: after ++ body)
      caseList rules bound (read ++ next :: trailing)
    else if ← atWord "default" then
      expect "default"
      let before ← gap
      expect ":"
      let (body, trailing) := splitTrailing (← statementList rules true rules.bound [])
      let next ← node .switchCase start (before ++ body)
      caseList rules bound (read ++ next :: trailing)
    else fail

def switchStatement (rules : Rules) : Reader Node := do
  let start ← position
  expect "switch"
  let before ← gap
  let subject ← condition rules
  let between ← gap
  expect "\x7b"
  let cases ← caseList rules rules.bound []
  expect "\x7d"
  node .switchStatement start (before ++ subject :: between ++ cases)

/-- A word and perhaps a value up to the semicolon. -/
def returnStatement (rules : Rules) : Reader Node := do
  let start ← position
  expect "return"
  match ← semicolon? true with
  | some comments => node .returnStatement start comments
  | none =>
    let before ← release
    let value ← rules.read (.expression .statement)
    let comments ← semicolon false
    node .returnStatement start (before ++ value :: comments)

def throwStatement (rules : Rules) : Reader Node := do
  let start ← position
  expect "throw"
  let before ← gap
  let value ← rules.read (.expression .statement)
  let comments ← semicolon false
  node .throwStatement start (before ++ value :: comments)

/-- A jump out of a loop or on to its next turn, perhaps with a label. -/
def jump (kind : Kind) (word : String) : Reader Node := do
  let start ← position
  expect word
  match ← semicolon? true with
  | some comments => node kind start comments
  | none =>
    let before ← release
    match ← word? with
    | some split =>
      let target ← leaf .label split
      let comments ← semicolon true
      node kind start (before ++ target :: comments)
    | none => fail

def debuggerStatement : Reader Node := do
  let start ← position
  expect "debugger"
  let comments ← semicolon true
  node .debuggerStatement start comments

def labeledStatement (rules : Rules) (split : Lexeme.Split) : Reader Node := do
  let start ← position
  let label ← leaf .label split
  let before ← gap
  expect ":"
  let after ← gap
  let body ← rules.read .statement
  node .labeledStatement start (label :: before ++ after ++ [body])

/-- Whether a function with a name follows the word `function`. -/
def functionIsNamed (split : Lexeme.Split) : Reader Bool := do
  match ← aheadOf split with
  | '*' :: after =>
    let s ← get
    return (Lexeme.name? ((Cursor.mk after s.cursor.position).pastTrivia true []).1.rest).isSome
  | after => return (Lexeme.name? after).isSome

/-- A function with a name, as a declaration. -/
def functionDeclaration (rules : Rules) (start : Position) (before : List Node) : Reader Node := do
  let read ← function rules start before
  return read.withKind
    (if read.kind = .generatorExpression then .generatorDeclaration else .functionDeclaration)

/-- A function with a name after the word `async`, if there is one on the same line. -/
def asyncDeclaration? (rules : Rules) (split : Lexeme.Split) : Reader (Option Node) := do
  let s ← get
  let start := s.cursor.position
  let after := (s.cursor.past split)
  if Semicolon.mayOmit false after.rest then return none
  else
    let (next, _) := after.pastTrivia false []
    match Lexeme.name? next.rest with
    | some word =>
      if word.1 == "function".toList then
        take split
        let between ← gap
        if ← functionIsNamed word then return some (← functionDeclaration rules start between)
        else
          set s
          return none
      else return none
    | none => return none

def classIsNamed (split : Lexeme.Split) : Reader Bool := do
  match Lexeme.name? (← aheadOf split) with
  | some next => return next.1 != "extends".toList
  | none => return false

/-- A class with a name. An automatic semicolon after its body belongs to it. -/
def classDeclaration (rules : Rules) : Reader Node := do
  let read ← classExpression rules
  let after ← blockEnd false
  return .mk .classDeclaration none ⟨read.start, (← get).stop⟩ [] (read.children ++ after)

end ClassScript.JavaScript.Reader
