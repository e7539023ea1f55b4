import ClassScript.JavaScript.Statement

/-!
# Imports and exports

What a module takes from others and gives to them. Both are read wherever a statement may stand.
-/

namespace ClassScript.JavaScript.Reader

/-- The name under which something is imported or exported: a word or a string. -/
def externalName (rules : Rules) : Reader Node := do
  if (← rest).head?.any isQuote then string rules
  else
    match ← word? with
    | some split => leaf .identifier split
    | none => fail

/-- The word `as` and another name, if they come next. -/
def alias? (rules : Rules) : Reader (List Node) := do
  pass
  if ← atWord "as" then
    let before ← release
    expect "as"
    let after ← gap
    return before ++ after ++ [← externalName rules]
  else return []

/-- Names in braces, each perhaps with another name. -/
def specifierList (rules : Rules) : (bound : Nat) → List Node → Reader (List Node)
  | 0, _ => fail
  | bound + 1, read => do
    let read := read ++ (← gap)
    if ← at? "\x7d" then return read
    else
      let name ← externalName rules
      let other ← alias? rules
      let read := read ++ name :: other ++ (← gap)
      if ← at? "," then
        expect ","
        specifierList rules bound read
      else if ← at? "\x7d" then return read
      else fail

def specifiers (rules : Rules) : Reader Node := do
  let start ← position
  expect "\x7b"
  let read ← specifierList rules rules.bound []
  expect "\x7d"
  node .moduleClause start read

/-- A star and the name that stands for all names, if there is one. -/
def namespaceClause (rules : Rules) : Reader Node := do
  let start ← position
  expect "*"
  let other ← alias? rules
  node .moduleClause start other

/-- The word `from` and a string. -/
def source (rules : Rules) : Reader (List Node) := do
  let before ← gap
  expect "from"
  let after ← gap
  return before ++ after ++ [← string rules]

/-- What an import takes, up to the word `from`. -/
def importClauses (rules : Rules) : (bound : Nat) → List Node → Reader (List Node)
  | 0, _ => fail
  | bound + 1, read => do
    let next ←
      if ← at? "\x7b" then specifiers rules
      else if ← at? "*" then namespaceClause rules
      else externalName rules
    let read := read ++ next :: (← gap)
    if ← at? "," then
      expect ","
      importClauses rules bound (read ++ (← gap))
    else return read

/-- The attributes of an import in braces after the word `with`, if they come next. -/
def importAttributes (rules : Rules) : Reader (List Node) := do
  let s ← get
  let (omitted, _) := s.cursor.seek true s.held
  if omitted then return []
  else
    passOperand
    if ← atWord "with" then
      let before ← release
      expect "with"
      let after ← gap
      return before ++ after ++ [← object rules]
    else return []

def importStatement (rules : Rules) : Reader Node := do
  let start ← position
  expect "import"
  let before ← gap
  let parts ←
    if (← rest).head?.any isQuote then do
      pure [← string rules]
    else do
      let clauses ← importClauses rules rules.bound []
      pure (clauses ++ (← source rules))
  let attributes ← importAttributes rules
  let comments ← semicolon true
  node .importStatement start (before ++ parts ++ attributes ++ comments)

/-- The source of what is passed on, if it comes next. -/
def source? (rules : Rules) : Reader (List Node) := do
  let s ← get
  let (omitted, _) := s.cursor.seek true s.held
  if omitted then return []
  else
    passOperand
    if ← atWord "from" then source rules else return []

/-- What is exported without a name of its own. -/
def exportDefault (rules : Rules) : Reader (List Node) := do
  expect "default"
  let before ← gap
  match ← word? with
  | some split =>
    let declared ← match String.ofList split.1 with
      | "function" => functionIsNamed split
      | "class" => classIsNamed split
      | _ => pure false
    if declared then return before ++ [← rules.read .statement]
    else
      let value ← rules.read (.expression .statement)
      return before ++ value :: (← semicolon false)
  | none =>
    let value ← rules.read (.expression .statement)
    return before ++ value :: (← semicolon false)

def exportStatement (rules : Rules) : Reader Node := do
  let start ← position
  expect "export"
  let before ← gap
  let parts ←
    if ← at? "*" then do
      let clause ← namespaceClause rules
      let from' ← source rules
      pure (clause :: from' ++ (← semicolon true))
    else if ← at? "\x7b" then do
      let clause ← specifiers rules
      let from' ← source? rules
      pure (clause :: from' ++ (← semicolon true))
    else if ← atWord "default" then exportDefault rules
    else do
      pure [← rules.read .statement]
  node .exportStatement start (before ++ parts)

end ClassScript.JavaScript.Reader
