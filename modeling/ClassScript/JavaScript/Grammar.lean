import ClassScript.JavaScript.ModuleItem

/-!
# The grammar

Ties the readers together: which statement the first word starts, and which reader a goal stands for.
Reading goes one level down wherever the grammar is recursive, and it fails when no level is left. It is
an assumption on the readers that a depth of eight times the number of characters is enough, since a
construct takes at least one character for every few levels; this is not proved.
-/

namespace ClassScript.JavaScript

namespace Reader

/-- A statement that starts with a word. -/
def wordStatement (rules : Rules) (split : Lexeme.Split) : Reader Node := do
  let start ← position
  match String.ofList split.1 with
  | "var" | "const" => bindings rules split
  | "let" => if ← letDeclares split then bindings rules split else expressionOrLabel
  | "function" =>
    if ← functionIsNamed split then functionDeclaration rules start []
    else expressionStatement rules
  | "async" =>
    match ← asyncDeclaration? rules split with
    | some declaration => return declaration
    | none => expressionOrLabel
  | "class" =>
    if ← classIsNamed split then classDeclaration rules else expressionStatement rules
  | "if" => ifStatement rules
  | "for" => forStatement rules
  | "while" => guarded rules .whileStatement "while"
  | "with" => guarded rules .withStatement "with"
  | "do" => doStatement rules
  | "try" => tryStatement rules
  | "switch" => switchStatement rules
  | "return" => returnStatement rules
  | "throw" => throwStatement rules
  | "break" => jump .breakStatement "break"
  | "continue" => jump .continueStatement "continue"
  | "debugger" => debuggerStatement
  | "export" => exportStatement rules
  | "import" =>
    match ← aheadOf split with
    | '(' :: _ | '.' :: _ => expressionStatement rules
    | _ => importStatement rules
  | _ => expressionOrLabel
where
  expressionOrLabel : Reader Node := do
    if !isReserved split.1 && (← aheadOf split).head? == some ':' then labeledStatement rules split
    else expressionStatement rules

def statement (rules : Rules) : Reader Node := do
  let start ← position
  match ← rest with
  | '\x7b' :: _ => block rules true
  | ';' :: _ =>
    expect ";"
    node .emptyStatement start []
  | _ =>
    match ← word? with
    | some split => wordStatement rules split
    | none => expressionStatement rules

/-- The reader of a goal, given those of the goals inside it. -/
def goal (rules : Rules) : Goal → Reader Node
  | .statement => statement rules
  | .expression context => expression rules context
  | .assignment context => assignment rules context
  | .binary context level => binary rules context level
  | .unary context => unary rules context
  | .operand context => operand rules context
  | .constructed context => constructed rules context
  | .binding => binding rules
  | .block settled => block rules settled
  | .markup => element rules

/-- The reader of a goal down to a depth of nested goals, which is assumed to be enough. -/
def goalWithin : (depth : Nat) → Goal → Reader Node
  | 0, _ => fail
  | depth + 1, wanted => goal ⟨depth, goalWithin depth⟩ wanted

/-- The first line of a script that names its interpreter, if there is one. -/
def hashBang? : Reader (Option Node) := do
  let cs ← rest
  if "#!".toList.isPrefixOf cs then
    return some (← leaf .hashBangLine (cs.takeWhile (· != '\n'), cs.dropWhile (· != '\n')))
  else return none

/-- All statements of a script with the comments between them. -/
def program (depth : Nat) : Reader (List Node) := do
  let before ← gap
  let bang ← hashBang?
  let read ← statementList ⟨depth, goalWithin depth⟩ false depth []
  match ← rest with
  | [] =>
    match (← get).unsettled with
    | some position => refuse position
    | none => return before ++ bang.toList ++ read
  | _ => fail

end Reader

end ClassScript.JavaScript
