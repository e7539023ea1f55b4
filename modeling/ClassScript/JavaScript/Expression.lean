import ClassScript.JavaScript.Class
import ClassScript.JavaScript.Markup

/-!
# Expressions

Operands are joined by operators of twelve levels. An operand is a primary expression with the accesses
and calls after it, perhaps an assignment to it, or a unary operator with its operand. Expressions
in parentheses may turn out to be the parameters of an arrow function, and are then read as patterns.
-/

namespace ClassScript.JavaScript.Reader

/-- How tightly an operator between two operands binds. -/
def level? : Follow → Option Nat
  | .punctuator "??" => some 1
  | .punctuator "||" => some 2
  | .punctuator "&&" => some 3
  | .punctuator "|" => some 4
  | .punctuator "^" => some 5
  | .punctuator "&" => some 6
  | .punctuator token =>
    if ["==", "!=", "===", "!=="].contains token then some 7
    else if ["<", ">", "<=", ">="].contains token then some 8
    else if ["<<", ">>", ">>>"].contains token then some 9
    else if ["+", "-"].contains token then some 10
    else if ["*", "/", "%"].contains token then some 11
    else if token = "**" then some 12
    else none
  | .word split =>
    if split.1 == "in".toList || split.1 == "instanceof".toList then some 8 else none
  | _ => none

/-- The operators that compute and assign. -/
def augmentedOperators : List String :=
  ["+=", "-=", "*=", "/=", "%=", "^=", "&=", "|=", ">>=", ">>>=", "<<=", "**=", "&&=", "||=", "??="]

/-- Takes the operator that `follow` has seen. -/
def takeFollow : Follow → Reader Unit
  | .word split => take split
  | .punctuator token => expect token
  | _ => fail

/-- The elements of parentheses that may be an expression or parameters, and whether a comma comes
last. -/
def coverList (rules : Rules) : (bound : Nat) → List Node → Reader (List Node × Bool)
  | 0, _ => fail
  | bound + 1, read => do
    let read := read ++ (← gap)
    if ← at? ")" then return (read, true)
    else
      let next ← if ← at? "..." then spread rules else rules.read (.assignment .inner)
      let read := read ++ next :: (← operandGap)
      if ← at? "," then
        expect ","
        coverList rules bound read
      else if ← at? ")" then return (read, false)
      else fail

def isTrivia (node : Node) : Bool := node.kind == .comment || node.kind == .htmlComment

/-- The expression that elements in parentheses make up, with the comments around it. -/
def joined (read : List Node) : List Node :=
  let before := read.takeWhile isTrivia
  let middle := ((read.dropWhile isTrivia).reverse.dropWhile isTrivia).reverse
  let after := (read.reverse.takeWhile isTrivia).reverse
  match middle with
  | [] => read
  | [_] => read
  | first :: others =>
    let stop := (others.getLast?.map Node.stop).getD first.stop
    before ++ .mk .sequenceExpression none ⟨first.start, stop⟩ [] middle :: after

/-- Parentheses around an expression, or an arrow function whose parameters they hold. -/
def parenthesized (rules : Rules) (context : Context) : Reader Node := do
  let start ← position
  let unsettled := (← get).unsettled
  expect "("
  let (read, comma) ← coverList rules rules.bound []
  let close ← position
  expect ")"
  let stop := (← get).stop
  let following ← follow context
  if following = .punctuator "=>" then
    match Node.toPatterns? read with
    | some patterns =>
      modify fun s ↦ { s with unsettled }
      let params := Node.mk .formalParameters (some .parameters) ⟨start, stop⟩ [] patterns
      arrow rules context start [params]
    | none => fail
  else if comma || read.any (·.kind == .spreadElement) then refuse close
  else return .mk .parenthesizedExpression none ⟨start, stop⟩ [] (joined read)

/-- A name, or an arrow function with it as its only parameter. -/
def nameOrArrow (rules : Rules) (context : Context) (start : Position) (before : List Node)
    (name : Node) : Reader Node := do
  let following ← follow context
  if following = .punctuator "=>" then arrow rules context start (before ++ [name.withRole .parameter])
  else return name

/-- Whether an arrow comes after the given name. -/
def arrowAfter (split : Lexeme.Split) : Reader Bool := do
  let after := (((← get).cursor.past split).pastTrivia false []).1.rest
  return Lexeme.punctuator? after == some "=>"

/-- What starts with the word `async`: a function, an arrow function, or the name itself. -/
def asyncOperand (rules : Rules) (context : Context) (split : Lexeme.Split) : Reader Node := do
  let start ← position
  let unsettled := (← get).unsettled
  let name ← leaf .identifier split
  match ← follow context with
  | .word next =>
    if next.1 == "function".toList then
      let between ← release
      function rules start between
    else if !isReserved next.1 && (← arrowAfter next) then
      let between ← release
      let param ← leaf .identifier next
      nameOrArrow rules context start between param
    else return name
  | .punctuator "(" =>
    let between ← release
    let args ← arguments rules
    let call ← node .callExpression start (name.withRole .callee :: between ++ [args])
    if (← follow context) = .punctuator "=>" then
      match Node.toPatterns? args.children with
      | some patterns =>
        modify fun s ↦ { s with unsettled }
        let params := Node.mk .formalParameters (some .parameters) args.span [] patterns
        arrow rules context start (between ++ [params])
      | none => fail
    else return call
  | .punctuator "=>" => arrow rules context start [name.withRole .parameter]
  | _ => return name

/-- The word `import` in an expression, which a call or `meta` follows. -/
def importOperand (context : Context) (split : Lexeme.Split) : Reader Node := do
  let start ← position
  let word ← leaf .import split
  match ← follow context with
  | .punctuator "." =>
    let before ← release
    expect "."
    let after ← gap
    match ← word? with
    | some property => do
      let property ← leaf .propertyIdentifier property
      node .metaProperty start (word :: before ++ after ++ [property])
    | none => fail
  | .punctuator "(" => return word
  | _ => fail

/-- The word `new` with what it creates, or `new.target`. -/
def newOperand (rules : Rules) (context : Context) : Reader Node := do
  let start ← position
  expect "new"
  pass
  if ← at? "." then
    let before ← release
    expect "."
    let after ← gap
    if ← atWord "target" then
      expect "target"
      node .metaProperty start (before ++ after)
    else fail
  else
    let before ← release
    let constructed ← rules.read (.constructed context)
    let bare ← node .newExpression start (before ++ [constructed])
    match ← follow context with
    | .punctuator "(" =>
      let between ← release
      let args ← arguments rules
      node .newExpression start (before ++ constructed :: between ++ [args])
    | _ => return bare

/-- A private name, which only the operator `in` may follow. -/
def privateOperand (context : Context) (split : Lexeme.Split) : Reader Node := do
  let name ← leaf .privateIdentifier split
  match ← follow context with
  | .word next => if next.1 == "in".toList then return name else fail
  | _ => fail

/-- What starts with a word. -/
def wordOperand (rules : Rules) (context : Context) (split : Lexeme.Split) : Reader Node := do
  let start ← position
  match String.ofList split.1 with
  | "function" => function rules start []
  | "class" => classExpression rules
  | "new" => newOperand rules context
  | "async" => asyncOperand rules context split
  | "import" => importOperand context split
  | "this" => leaf .this split
  | "super" => leaf .super split
  | "true" => leaf .true split
  | "false" => leaf .false split
  | "null" => leaf .null split
  | "undefined" => leaf .undefined split
  | _ =>
    if isReserved split.1 then fail
    else
      let name ← leaf .identifier split
      nameOrArrow rules context start [] name

/-- An expression that no operator takes apart. -/
def primary (rules : Rules) (context : Context) : Reader Node := do
  let cs ← rest
  match cs with
  | '(' :: _ => parenthesized rules context
  | '[' :: _ => array rules
  | '\x7b' :: _ => object rules
  | '\x60' :: _ => template rules
  | '<' :: _ => rules.read .markup
  | '/' :: _ =>
    match Lexeme.regex? cs with
    | some split => leaf .regex split
    | none => fail
  | '#' :: _ =>
    match Lexeme.privateName? cs with
    | some split => privateOperand context split
    | none => fail
  | _ =>
    if cs.head?.any isQuote then string rules
    else
      match Lexeme.name? cs, Lexeme.number? cs with
      | some split, _ => wordOperand rules context split
      | none, some split => leaf .number split
      | none, none => fail

/-- The name after a dot. -/
def accessedName : Reader Node := do
  let cs ← rest
  match Lexeme.name? cs, Lexeme.privateName? cs with
  | some split, _ => return (← leaf .propertyIdentifier split).withRole .property
  | none, some split => return (← leaf .privateIdentifier split).withRole .property
  | none, none => fail

/-- An index in brackets after an operand. -/
def subscript (rules : Rules) (start : Position) (before : List Node) : Reader Node := do
  expect "["
  let inside ← gap
  let index ← rules.read (.expression .inner)
  let after ← operandGap
  expect "]"
  node .subscriptExpression start (before ++ inside ++ index :: after)

/-- The accesses and calls after an operand. Without `calls` a call ends them. -/
def accesses (rules : Rules) (context : Context) (calls : Bool) (start : Position) :
    (bound : Nat) → Node → Reader Node
  | 0, _ => fail
  | bound + 1, base => do
    match ← follow context with
    | .punctuator "." => do
      let before ← release
      expect "."
      let after ← gap
      let property ← accessedName
      let access ← node .memberExpression start
        (base.withRole .target :: before ++ after ++ [property])
      accesses rules context calls start bound access
    | .punctuator "[" => do
      let before ← release
      let access ← subscript rules start (base.withRole .target :: before)
      accesses rules context calls start bound access
    | .template => do
      let before ← release
      let text ← template rules
      let call ← node .callExpression start
        (base.withRole .callee :: before ++ [text.withRole .arguments])
      accesses rules context calls start bound call
    | .punctuator "(" =>
      if calls then do
        let before ← release
        let args ← arguments rules
        let call ← node .callExpression start (base.withRole .callee :: before ++ [args])
        accesses rules context calls start bound call
      else return base
    | .punctuator "?." =>
      if calls then do
        let before ← release
        expect "?."
        let after ← gap
        let access ← match ← rest with
          | '(' :: _ => do
            let args ← arguments rules
            node .callExpression start (base.withRole .callee :: before ++ after ++ [args])
          | '[' :: _ => subscript rules start (base.withRole .target :: before ++ after)
          | _ => do
            let property ← accessedName
            node .memberExpression start (base.withRole .target :: before ++ after ++ [property])
        accesses rules context calls start bound access
      else return base
    | _ => return base

def operand (rules : Rules) (context : Context) : Reader Node := do
  let start ← position
  let base ← primary rules context
  accesses rules context true start rules.bound base

def constructed (rules : Rules) (context : Context) : Reader Node := do
  let start ← position
  let base ← primary rules context
  accesses rules context false start rules.bound base

/-- An operand and what is done to it: a step up or down after it, or an assignment. -/
def changed (rules : Rules) (context : Context) : Reader Node := do
  let start ← position
  let unsettled := (← get).unsettled
  let base ← operand rules context
  match ← follow context with
  | .punctuator token =>
    if token = "++" ∨ token = "--" then
      let before ← release
      expect token
      node .updateExpression start (base :: before)
    else if token = "=" then
      match base.toTarget? with
      | some target =>
        if target.kind != base.kind then modify fun s ↦ { s with unsettled }
        let before ← release
        expect "="
        let after ← gap
        let value ← rules.read (.assignment context)
        node .assignmentExpression start (target :: before ++ after ++ [value])
      | none => return base
    else if augmentedOperators.contains token && base.isPlace then
      let before ← release
      expect token
      let after ← gap
      let value ← rules.read (.assignment context)
      node .augmentedAssignment start (base :: before ++ after ++ [value])
    else return base
  | _ => return base

/-- Whether the characters can start an operand after `await`. -/
def startsOperand (cs : List Char) : Bool :=
  match cs with
  | [] => false
  | c :: _ =>
    match Lexeme.name? cs with
    | some split => ["in", "of", "instanceof"].all (·.toList != split.1)
    | none => isDigit c || isQuote c || "([\x7b\x60+-!~/<#".toList.contains c

/-- A unary operator, known to be the given characters, and its operand. -/
def unaryOperator (rules : Rules) (context : Context) (kind : Kind) (token : String) :
    Reader Node := do
  let start ← position
  expect token
  let before ← gap
  let argument ← rules.read (.unary context)
  node kind start (before ++ [argument])

/-- The word `yield` with the value that it hands out, if it has one. -/
def yieldOperator (rules : Rules) (context : Context) : Reader Node := do
  let start ← position
  expect "yield"
  let bare ← node .yieldExpression start []
  let following ← follow context
  match following with
  | .ended => return bare
  | .punctuator "*" =>
    let before ← release
    expect "*"
    let after ← gap
    let value ← rules.read (.assignment context)
    node .yieldExpression start (before ++ after ++ [value])
  | _ =>
    if startsOperand (← rest) then
      let before ← release
      let value ← rules.read (.assignment context)
      node .yieldExpression start (before ++ [value])
    else return bare

def unary (rules : Rules) (context : Context) : Reader Node := do
  let cs ← rest
  match Lexeme.name? cs with
  | some split =>
    match String.ofList split.1 with
    | "typeof" => unaryOperator rules context .unaryExpression "typeof"
    | "void" => unaryOperator rules context .unaryExpression "void"
    | "delete" => unaryOperator rules context .unaryExpression "delete"
    | "yield" => yieldOperator rules context
    | "await" =>
      let after := (((← get).cursor.past split).pastTrivia false []).1.rest
      if startsOperand after then unaryOperator rules context .awaitExpression "await"
      else changed rules context
    | _ => changed rules context
  | none =>
    match Lexeme.punctuator? cs with
    | some "!" => unaryOperator rules context .unaryExpression "!"
    | some "~" => unaryOperator rules context .unaryExpression "~"
    | some "+" => unaryOperator rules context .unaryExpression "+"
    | some "-" => unaryOperator rules context .unaryExpression "-"
    | some "++" => unaryOperator rules context .updateExpression "++"
    | some "--" => unaryOperator rules context .updateExpression "--"
    | _ => changed rules context

/-- Goes on with operators that bind at least as tightly as the level. -/
def operators (rules : Rules) (context : Context) (level : Nat) (start : Position) :
    (bound : Nat) → Node → Reader Node
  | 0, _ => fail
  | bound + 1, left => do
    let following ← follow context
    let isIn := match following with
      | .word split => split.1 == "in".toList
      | _ => false
    match level? following with
    | some found =>
      if found < level || (isIn && !context.allowsIn) then return left
      else
        let before ← release
        takeFollow following
        let after ← gap
        let right ← rules.read (.binary context (if found = 12 then 12 else found + 1))
        let joined ← node .binaryExpression start (left :: before ++ after ++ [right])
        operators rules context level start bound joined
    | none => return left

def binary (rules : Rules) (context : Context) (level : Nat) : Reader Node := do
  let start ← position
  let left ← unary rules context
  operators rules context level start rules.bound left

/-- An expression without commas, which may choose between two values. -/
def assignment (rules : Rules) (context : Context) : Reader Node := do
  let start ← position
  let condition ← binary rules context 0
  if (← follow context) = .punctuator "?" then
    let c₁ ← release
    expect "?"
    let c₂ ← gap
    let consequence ← rules.read (.assignment .inner)
    let c₃ ← operandGap
    expect ":"
    let c₄ ← gap
    let alternative ← rules.read (.assignment context)
    node .ternaryExpression start
      (condition :: c₁ ++ c₂ ++ consequence :: c₃ ++ c₄ ++ [alternative])
  else return condition

/-- Goes on with further expressions after commas. -/
def sequence (rules : Rules) (context : Context) (start : Position) :
    (bound : Nat) → List Node → Reader Node
  | 0, _ => fail
  | bound + 1, read => do
    if (← follow context) = .punctuator "," then
      let before ← release
      expect ","
      let after ← gap
      let next ← rules.read (.assignment context)
      sequence rules context start bound (read ++ before ++ after ++ [next])
    else
      match read with
      | [single] => return single
      | _ => node .sequenceExpression start read

def expression (rules : Rules) (context : Context) : Reader Node := do
  let start ← position
  let first ← assignment rules context
  sequence rules context start rules.bound [first]

/-- A name, or an object or array pattern, whose names are declared. -/
def binding (rules : Rules) : Reader Node := do
  let cs ← rest
  let start ← position
  let unsettled := (← get).unsettled
  match cs with
  | '\x7b' :: _ | '[' :: _ =>
    let literal ← if cs.head? = some '[' then array rules else object rules
    modify fun s ↦ { s with unsettled }
    match literal.toPattern? with
    | some pattern => return pattern
    | none => refuse start
  | _ =>
    match Lexeme.name? cs with
    | some split =>
      if isReserved split.1 then fail
      else leaf (if split.1 == "undefined".toList then .undefined else .identifier) split
    | none => fail

end ClassScript.JavaScript.Reader
