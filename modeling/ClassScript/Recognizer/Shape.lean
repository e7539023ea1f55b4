import ClassScript.Analysis
import ClassScript.Failure
import ClassScript.JavaScript.Shape
import ClassScript.Recognizer.State

/-!
# Classes, sides and keyword calls

A class is a function, or the call of `subclass` on a string with a function as its last argument. The
first two parameters of that function name the instance side and the class side. A keyword call calls
a method of one of the sides with an object literal as its only argument, and the method's name tells
under which aspect the members of the literal are filed.
-/

namespace ClassScript.Recognizer

open JavaScript (Node EscapeFault)

/-- A class found in a script: the string that names its superclass, if any, and its function. -/
structure ClassShape where
  base : Option Node
  function : Node

/-- Whether a node is a function that may encode a class given as an argument. -/
def isScript (node : Node) : Bool := node.kind == .functionExpression || node.kind == .arrowFunction

/-- The class that an expression without parentheses around it is. -/
def classShape? (expression : Node) : Option ClassShape :=
  if expression.kind = .functionExpression then some ⟨none, expression⟩
  else if expression.kind = .callExpression then
    match expression.part? .callee, expression.callArguments.getLast? with
    | some callee, some script =>
      match callee.part? .target with
      | some base =>
        if callee.kind = .memberExpression ∧ base.kind = .string ∧
            callee.propertyName? = some (Text.ofString "subclass") ∧ isScript script then
          some ⟨some base, script⟩
        else none
      | none => none
    | _, _ => none
  else none

/-- The class that a statement is. -/
def statementShape? (statement : Node) : Option ClassShape :=
  if statement.kind = .functionDeclaration then some ⟨none, statement⟩
  else statement.expression?.bind classShape?

/-- The class that the value of a member is. -/
def memberShape? (member : Node) : Option ClassShape :=
  member.memberValue.unwrapped?.bind classShape?

theorem size_callArguments {call argument : Node} (h : argument ∈ call.callArguments) :
    argument.size < call.size := by
  unfold Node.callArguments at h
  split at h
  · next args hargs =>
    have h₁ := Node.size_lt_of_mem (List.mem_of_find?_eq_some hargs)
    split at h
    · have h₂ := Node.size_lt_of_mem (List.mem_filter.1 h).1
      omega
    · simp at h
  · simp at h

theorem size_classShape {expression : Node} {shape : ClassShape}
    (h : classShape? expression = some shape) : shape.function.size ≤ expression.size := by
  unfold classShape? at h
  split at h
  · simp only [Option.some.injEq] at h
    subst h
    exact Nat.le_refl _
  · split at h
    · split at h
      · next script _ hlast =>
        have := size_callArguments (List.mem_of_getLast? hlast)
        split at h
        · split at h
          · simp only [Option.some.injEq] at h
            subst h
            exact Nat.le_of_lt this
          · simp at h
        · simp at h
      · simp at h
    · simp at h

theorem size_memberValue (member : Node) : member.memberValue.size ≤ member.size := by
  unfold Node.memberValue
  split
  · cases h : member.part? .value with
    | none => exact Nat.le_refl _
    | some value => exact Nat.le_of_lt (Node.size_lt_of_mem (List.mem_of_find?_eq_some h))
  · exact Nat.le_refl _

theorem size_memberShape {member : Node} {shape : ClassShape}
    (h : memberShape? member = some shape) : shape.function.size ≤ member.size := by
  obtain ⟨value, hvalue, hshape⟩ := Option.bind_eq_some_iff.1 h
  have h₁ := size_classShape hshape
  have h₂ := Node.size_unwrapped hvalue
  have h₃ := size_memberValue member
  omega

theorem size_body {function body : Node} (h : function.body? = some body) :
    body.size < function.size :=
  Node.size_lt_of_mem (List.mem_of_find?_eq_some h)

namespace ClassShape

/-- The name of the superclass; decoding the string may fail. -/
def superclass (shape : ClassShape) : Except EscapeFault Text :=
  match shape.base with
  | some base => base.stringValue
  | none => .ok ClassAnalysis.bareSuperclass

end ClassShape

/-- The sides that the first two parameters name. A parameter that is no plain name names none. -/
def bindSides (parameters : List Node) : Sides :=
  let bind := fun (side : Side) (parameter : Node) (sides : Sides) ↦
    if parameter.kind = .identifier then Table.put parameter.name side sides else sides
  match parameters with
  | [] => []
  | [first] => bind .instanceSide first []
  | first :: second :: _ => bind .classSide second (bind .instanceSide first [])

/-- The keyword call that a node is. -/
def keywordCall? (sides : Sides) (path : Path) (node : Node) : Option Keyword :=
  if node.kind = .callExpression then
    match node.part? .callee, node.callArguments with
    | some callee, [literal] =>
      match callee.part? .target, callee.propertyName? with
      | some target, some name =>
        if callee.kind = .memberExpression ∧ target.kind = .identifier ∧ literal.kind = .object then
          (Table.get? target.name sides).map fun side ↦
            { call := path
              literal := literalPath path node
              inside := literal.start
              side
              name }
        else none
      | _, _ => none
    | _, _ => none
  else none
where
  /-- The path of the first argument of a call. -/
  literalPath (path : Path) (call : Node) : Path :=
    let atArguments := call.children.findIdx fun child ↦ child.role == some .arguments
    let args := (call.part? .arguments).map Node.children
    let atLiteral := (args.getD []).findIdx fun child ↦ child.kind != .comment
    atLiteral :: atArguments :: path

/-- The aspect under which a keyword files a member, given whether the member's value is null. The
keywords for flags and nested classes are not among these. -/
def aspectOf (keyword : Text) (side : Side) (isNull : Bool) : Aspect :=
  if keyword = Text.ofString "have" then .fixed (.facet side .vars)
  else if keyword = Text.ofString "access" then .fixed (.facet side .accessors)
  else if keyword = Text.ofString "refine" then .fixed (.facet side .refinements)
  else if keyword = Text.ofString "know" then
    .fixed (.facet side (if isNull then .constants else .methods))
  else if keyword = Text.ofString "setup" ∨ keyword = Text.ofString "share" then .fixed .package
  else .generic side keyword

end ClassScript.Recognizer
