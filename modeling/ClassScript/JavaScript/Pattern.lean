import ClassScript.JavaScript.Node

/-!
# Patterns

An array or object that turns out to be assigned to, or to stand among the parameters of an arrow
function, is a pattern. It is read as an expression and then turned into the pattern of the same
shape, if there is one.
-/

namespace ClassScript.JavaScript.Node

mutual

/-- The pattern of the same shape. Names, accesses and patterns stay what they are. -/
def toPattern? : Node → Option Node
  | mk kind role span text children =>
    match kind with
    | .comment | .htmlComment | .identifier | .undefined | .memberExpression | .subscriptExpression
    | .objectPattern | .arrayPattern | .assignmentPattern | .restPattern | .objectAssignmentPattern =>
      some (mk kind role span text children)
    | .shorthandProperty => some (mk .shorthandPattern role span text children)
    | .assignmentExpression => some (mk .assignmentPattern role span text children)
    | .object => (toPatterns? children).map (mk .objectPattern role span text)
    | .array => (toPatterns? children).map (mk .arrayPattern role span text)
    | .spreadElement => (toPatterns? children).map (mk .restPattern role span text)
    | .pair => (toPairPattern? children).map (mk .pairPattern role span text)
    | _ => none

def toPatterns? : List Node → Option (List Node)
  | [] => some []
  | node :: rest =>
    match toPattern? node, toPatterns? rest with
    | some pattern, some patterns => some (pattern :: patterns)
    | _, _ => none

/-- Turns the value of a pair into a pattern and leaves its key. -/
def toPairPattern? : List Node → Option (List Node)
  | [] => some []
  | node :: rest =>
    match node.role with
    | some .value =>
      match toPattern? node, toPairPattern? rest with
      | some pattern, some others => some (pattern :: others)
      | _, _ => none
    | _ => (toPairPattern? rest).map (node :: ·)

end

/-- What an assignment to this expression assigns to. -/
def toTarget? (node : Node) : Option Node :=
  match node.kind with
  | .identifier | .undefined | .memberExpression | .subscriptExpression
  | .parenthesizedExpression => some node
  | .object | .array => node.toPattern?
  | _ => none

/-- Whether an assignment that also computes may assign to this expression. -/
def isPlace (node : Node) : Bool :=
  match node.kind with
  | .identifier | .undefined | .memberExpression | .subscriptExpression
  | .parenthesizedExpression => true
  | _ => false

end ClassScript.JavaScript.Node
