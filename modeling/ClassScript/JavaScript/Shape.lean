import ClassScript.JavaScript.Escape
import ClassScript.JavaScript.Script

/-!
# Shapes of nodes

The questions that the recognition of classes asks of a syntax tree: what a statement or a call is made
of, which members an object has, and what their keys and values are. Comments never count.
-/

namespace ClassScript.JavaScript

namespace Node

/-- The first child that is no comment. -/
def firstPart? (node : Node) : Option Node :=
  node.children.find? fun child ↦ child.kind != .comment

/-- What is inside any number of parentheses; `none` if there is nothing. -/
def unwrapped? (node : Node) : Option Node :=
  if node.kind = .parenthesizedExpression then
    match _h : node.firstPart? with
    | some inner => unwrapped? inner
    | none => none
  else some node
termination_by node.size
decreasing_by exact size_lt_of_mem (List.mem_of_find?_eq_some _h)

theorem size_unwrapped {node inner : Node} (h : node.unwrapped? = some inner) :
    inner.size ≤ node.size := by
  fun_induction unwrapped? node with
  | case1 node _ part hpart ih =>
    have := size_lt_of_mem (List.mem_of_find?_eq_some hpart)
    have := ih h
    omega
  | case2 => simp at h
  | case3 =>
    simp only [Option.some.injEq] at h
    subst h
    exact Nat.le_refl _

/-- Whether a statement is a string on its own. -/
def isDirective (statement : Node) : Bool :=
  statement.kind == .expressionStatement && statement.firstPart?.any (·.kind == .string)

/-- The expression of an expression statement without parentheses around it. -/
def expression? (statement : Node) : Option Node :=
  if statement.kind = .expressionStatement then statement.firstPart?.bind unwrapped? else none

/-- The arguments of a call. A tagged template has none. -/
def callArguments (call : Node) : List Node :=
  match call.part? .arguments with
  | some args => if args.kind = .arguments then args.parts else []
  | none => []

/-- The name after the dot of an access, as written. -/
def propertyName? (access : Node) : Option Text :=
  (access.part? .property).map fun property ↦ Text.ofChars property.text

def name (node : Node) : Text := Text.ofChars node.text

/-- The parameters of a function of any form. -/
def functionParameters (function : Node) : List Node :=
  match function.part? .parameter with
  | some single => [single]
  | none =>
    match function.part? .parameters with
    | some list => list.parts
    | none => []

def body? (function : Node) : Option Node := function.part? .body

def isMember (node : Node) : Bool :=
  node.kind == .pair || node.kind == .methodDefinition || node.kind == .shorthandProperty

/-- The members of an object literal that declare a key. -/
def members (object : Node) : List Node := object.children.filter isMember

/-- The key of a member: computed, or a name. -/
inductive Key where
  | computed
  | missing
  | named (name : Text)

/-- The key of a member of an object literal. A string is decoded, anything else is taken as written. -/
def key (member : Node) : Except EscapeFault Key :=
  if member.kind = .shorthandProperty then .ok (.named member.name)
  else
    match member.part? (if member.kind = .pair then .key else .name) with
    | none => .ok .missing
    | some key =>
      if key.kind = .computedKey then .ok .computed
      else if key.kind = .string then do return .named (← key.stringValue)
      else .ok (.named key.name)

/-- The value of a member. Methods and names that stand for themselves are their own values. -/
def memberValue (member : Node) : Node :=
  if member.kind = .pair then (member.part? .value).getD member else member

def isBoolean (node : Node) : Bool := node.kind == .true || node.kind == .false

end Node

namespace Script

/-- The statements after the directives at the start. HTML-like comments count as statements. -/
def statements (script : Script) : List Node :=
  (script.root.children.filter fun child ↦ child.kind != .comment && child.kind != .hashBangLine).dropWhile
    Node.isDirective

end Script

end ClassScript.JavaScript
