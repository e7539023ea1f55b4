import ClassScript.JavaScript.Literal
import ClassScript.JavaScript.Pattern

/-!
# Functions, methods and parameters

The parts that functions of all forms share. A function's body is a block; an arrow's body may also be
an expression.
-/

namespace ClassScript.JavaScript.Reader

/-- One parameter: a binding, perhaps with a default value, or the rest of the arguments. -/
def parameter (rules : Rules) : Reader Node := do
  let start ← position
  if ← at? "..." then
    expect "..."
    let before ← gap
    let target ← rules.read .binding
    node .restPattern start (before ++ [target])
  else
    let target ← rules.read .binding
    pass
    if ← at? "=" then
      let before ← release
      expect "="
      let after ← gap
      let value ← rules.read (.assignment .inner)
      node .assignmentPattern start (target :: before ++ after ++ [value])
    else return target

def parameterList (rules : Rules) : (bound : Nat) → List Node → Reader (List Node)
  | 0, _ => fail
  | bound + 1, read => do
    let read := read ++ (← gap)
    if ← at? ")" then return read
    else
      let next ← parameter rules
      let read := read ++ next :: (← gap)
      if ← at? "," then
        expect ","
        parameterList rules bound read
      else if ← at? ")" then return read
      else fail

/-- Parameters in parentheses. -/
def parameters (rules : Rules) : Reader Node := do
  let start ← position
  expect "("
  let read ← parameterList rules rules.bound []
  expect ")"
  return (← node .formalParameters start read).withRole .parameters

/-- The parameters and the body of a function; `settled` says that no operator can follow it. -/
def signature (rules : Rules) (settled : Bool) : Reader (List Node) := do
  let params ← parameters rules
  let between ← gap
  let body ← rules.read (.block settled)
  return params :: between ++ [body.withRole .body]

/-- A function from the word `function` on. It starts where `async` does if that comes before. -/
def function (rules : Rules) (start : Position) (before : List Node) : Reader Node := do
  expect "function"
  let between ← gap
  let generates ← at? "*"
  let afterStar ← if generates then do
      expect "*"
      gap
    else pure []
  let name ← match ← word? with
    | some split => do
      let name ← leaf .identifier split
      let after ← gap
      pure (name.withRole .name :: after)
    | none => pure []
  let parts ← signature rules false
  node (if generates then .generatorExpression else .functionExpression) start
    (before ++ between ++ afterStar ++ name ++ parts)

/-- A method from its parameters on; what comes before is given. -/
def method (rules : Rules) (start : Position) (before : List Node) : Reader Node := do
  let parts ← signature rules true
  node .methodDefinition start (before ++ parts)

/-- An arrow function from the arrow on; its parameters are given. -/
def arrow (rules : Rules) (context : Context) (start : Position) (before : List Node) :
    Reader Node := do
  let between ← release
  expect "=>"
  let after ← gap
  let body ← match ← rest with
    | '\x7b' :: _ => rules.read (.block false)
    | _ => rules.read (.assignment context)
  node .arrowFunction start (before ++ between ++ after ++ [body.withRole .body])

end ClassScript.JavaScript.Reader
