import ClassScript.JavaScript.Property

/-!
# Classes

A class of the language itself: a name, what it extends, and a body of methods, fields and static
blocks. The name may be missing everywhere.
-/

namespace ClassScript.JavaScript.Reader

/-- Whether the word `static` comes next with a block after it. -/
def atStaticBlock : Reader Bool := do
  match ← word? with
  | some split =>
    let after := (((← get).cursor.past split).pastTrivia true []).1.rest
    return split.1 == "static".toList && after.head? == some '\x7b'
  | none => return false

def staticBlock (rules : Rules) : Reader Node := do
  let start ← position
  expect "static"
  let between ← gap
  let body ← rules.read (.block true)
  node .staticBlock start (between ++ [body.withRole .body])

/-- A method or a field, with the comments up to the semicolon that ends a field. -/
def classMember (rules : Rules) : Reader (List Node) := do
  let start ← position
  let static ← match ← modifier? "static" true with
    | some split => do
      take split
      gap
    | none => pure []
  let modifiers ← methodModifiers
  let name ← propertyName rules
  pass
  let before := static ++ modifiers.getD []
  if ← at? "(" then
    let between ← release
    return [← method rules start (before ++ name.withRole .name :: between)]
  else if modifiers.isSome then fail
  else if ← at? "=" then
    let between ← release
    expect "="
    let after ← gap
    let value ← rules.read (.assignment .statement)
    let field ← node .fieldDefinition start (before ++ name :: between ++ after ++ [value])
    return field :: (← semicolon false)
  else
    let field := Node.mk .fieldDefinition none ⟨start, name.stop⟩ [] (before ++ [name])
    return field :: (← semicolon true)

def classMemberList (rules : Rules) : (bound : Nat) → List Node → Reader (List Node)
  | 0, _ => fail
  | bound + 1, read => do
    let read := read ++ (← gap)
    if ← at? "\x7d" then return read
    else if ← at? ";" then
      expect ";"
      classMemberList rules bound read
    else if ← atStaticBlock then
      classMemberList rules bound (read ++ [← staticBlock rules])
    else classMemberList rules bound (read ++ (← classMember rules))

def classBody (rules : Rules) : Reader Node := do
  let start ← position
  expect "\x7b"
  let read ← classMemberList rules rules.bound []
  expect "\x7d"
  node .classBody start read

/-- A class from the word `class` on. -/
def classExpression (rules : Rules) : Reader Node := do
  let start ← position
  expect "class"
  let afterWord ← gap
  let name ← match ← word? with
    | some split =>
      if split.1 == "extends".toList then pure []
      else do
        let name ← leaf .identifier split
        let after ← gap
        pure (name.withRole .name :: after)
    | none => pure []
  let heritage ← if ← atWord "extends" then do
      let place ← position
      expect "extends"
      let before ← gap
      let base ← rules.read (.operand .inner)
      let heritage ← node .classHeritage place (before ++ [base])
      let after ← gap
      pure (heritage :: after)
    else pure []
  let body ← classBody rules
  node .classExpression start (afterWord ++ name ++ heritage ++ [body.withRole .body])

end ClassScript.JavaScript.Reader
