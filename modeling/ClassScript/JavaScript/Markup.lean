import ClassScript.JavaScript.Property

/-!
# Markup in expressions

An element has a tag with attributes and, unless the tag closes itself, content up to a closing tag.
Content is text, further elements, and expressions in braces. Tags without a name enclose fragments.
-/

namespace ClassScript.JavaScript.Reader

/-- Whether the given characters come next. -/
def looking (token : String) : Reader Bool := return token.toList.isPrefixOf (← rest)

/-- The name of a tag or an attribute, with the dashes, dots and colons in it. -/
def markupName (kind : Kind) : Reader Node := do
  let cs ← rest
  match cs with
  | c :: _ =>
    if isNameStart c then
      let inside := fun c ↦ isNamePart c || c == '-' || c == '.' || c == ':'
      leaf kind (cs.takeWhile inside, cs.dropWhile inside)
    else fail
  | [] => fail

/-- An expression, a spread or nothing in braces. -/
def markupExpression (rules : Rules) : Reader Node := do
  let start ← position
  expect "\x7b"
  let before ← gap
  if ← at? "\x7d" then
    expect "\x7d"
    node .jsxExpression start before
  else
    let value ← if ← at? "..." then spread rules else rules.read (.expression .inner)
    let after ← operandGap
    expect "\x7d"
    node .jsxExpression start (before ++ value :: after)

/-- The value of an attribute. A quoted one runs to the same quote and has no escapes. -/
def markupValue (rules : Rules) : Reader Node := do
  let cs ← rest
  match cs with
  | '\x7b' :: _ => markupExpression rules
  | '<' :: _ => rules.read .markup
  | c :: more =>
    if isQuote c then
      let inside := more.takeWhile (· != c)
      if inside.length < more.length then
        leaf .string (c :: inside ++ [c], more.drop (inside.length + 1))
      else fail
    else fail
  | [] => fail

/-- The attributes of a tag up to its end. -/
def attributeList (rules : Rules) : (bound : Nat) → List Node → Reader (List Node)
  | 0, _ => fail
  | bound + 1, read => do
    let read := read ++ (← gap)
    if (← looking "/>") || (← looking ">") then return read
    else if ← looking "\x7b" then attributeList rules bound (read ++ [← markupExpression rules])
    else
      let start ← position
      let name ← markupName .propertyIdentifier
      pass
      if ← looking "=" then
        let before ← release
        expect "="
        let after ← gap
        let value ← markupValue rules
        let next ← node .jsxAttribute start (name :: before ++ after ++ [value])
        attributeList rules bound (read ++ [next])
      else
        attributeList rules bound (read ++ [.mk .jsxAttribute none name.span [] [name]])

/-- The content of an element up to its closing tag. -/
def content (rules : Rules) : (bound : Nat) → List Node → Reader (List Node)
  | 0, _ => fail
  | bound + 1, read => do
    let cs ← rest
    match cs with
    | [] => fail
    | '<' :: _ =>
      if "</".toList.isPrefixOf cs then return read
      else content rules bound (read ++ [← rules.read .markup])
    | '\x7b' :: _ => content rules bound (read ++ [← markupExpression rules])
    | c :: _ =>
      if c = '>' ∨ c = '\x7d' then fail
      else
        let inside := fun c ↦ c != '<' && c != '>' && c != '\x7b' && c != '\x7d'
        let text ← leaf .jsxText (cs.takeWhile inside, cs.dropWhile inside)
        content rules bound (read ++ [text])

/-- The name of a tag, if it has one, and the comments after it. -/
def tagName : Reader (List Node) := do
  if (← rest).head?.any isNameStart then
    let name ← markupName .identifier
    let after ← gap
    return name :: after
  else return []

def element (rules : Rules) : Reader Node := do
  let start ← position
  expect "<"
  let before ← gap
  let name ← tagName
  let attributes ← if name.isEmpty then pure [] else attributeList rules rules.bound []
  if ← looking "/>" then
    if name.isEmpty then fail
    else
      expect "/>"
      node .jsxElement start (before ++ name ++ attributes)
  else
    expect ">"
    let tag ← node .jsxTag start (before ++ name ++ attributes)
    let inside ← content rules rules.bound []
    let closing ← position
    expect "</"
    let afterSlash ← gap
    let closingName ← tagName
    expect ">"
    let closingTag ← node .jsxTag closing (afterSlash ++ closingName)
    node .jsxElement start (tag :: inside ++ [closingTag])

end ClassScript.JavaScript.Reader
