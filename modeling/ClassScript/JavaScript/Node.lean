import ClassScript.JavaScript.Lexeme
import ClassScript.Position

/-!
# Syntax trees

A node has a kind, the role it plays in its parent, a span, the characters it is made of if it has no
parts, and its children in the order of the source. Comments are nodes like any other and may stand
between any two children. Punctuation has no nodes. The kind of an escape sequence carries its token, so
that no tree has an escape sequence which the lexer would not split off.

The nodes of a tree are visited in document order, each before its children. `preorder` says so by
recursion; `walk` does it with a list of the nodes still to be visited.
-/

namespace ClassScript.JavaScript

/-- A range of the source, without the character at `stop`. -/
structure Span where
  start : Position
  stop : Position
deriving DecidableEq, Repr, Inhabited

inductive Kind where
  | program | hashBangLine | comment | htmlComment
  | expressionStatement | functionDeclaration | generatorDeclaration | classDeclaration
  | variableDeclaration | variableDeclarator | block | emptyStatement | ifStatement | elseClause
  | forStatement | whileStatement | doStatement | tryStatement | catchClause | finallyClause
  | switchStatement | switchCase | labeledStatement | label | breakStatement | continueStatement
  | returnStatement | throwStatement | withStatement | debuggerStatement | importStatement
  | exportStatement | moduleClause
  | identifier | undefined | propertyIdentifier | privateIdentifier | this | super | import
  | number | string | stringFragment | escapeSequence (token : Lexeme.EscapeToken)
  | templateString | templateSubstitution | regex | true | false | null
  | object | pair | shorthandProperty | methodDefinition | spreadElement | computedKey | array
  | functionExpression | generatorExpression | arrowFunction | formalParameters
  | classExpression | classHeritage | classBody | fieldDefinition | staticBlock
  | metaProperty | callExpression | arguments | memberExpression | subscriptExpression
  | newExpression | awaitExpression | yieldExpression | unaryExpression | updateExpression
  | binaryExpression | ternaryExpression | assignmentExpression | augmentedAssignment
  | sequenceExpression | parenthesizedExpression
  | objectPattern | arrayPattern | assignmentPattern | restPattern | pairPattern
  | shorthandPattern | objectAssignmentPattern
  | jsxElement | jsxTag | jsxAttribute | jsxText | jsxExpression
deriving DecidableEq, Repr, Inhabited

/-- The part that a node plays in its parent, where a reader of the tree asks for it. -/
inductive Role where
  | callee | arguments | target | property | key | name | value | parameter | parameters | body
deriving DecidableEq, Repr

inductive Node where
  | mk (kind : Kind) (role : Option Role) (span : Span) (text : List Char) (children : List Node)

namespace Node

def kind : Node → Kind
  | mk kind _ _ _ _ => kind

def role : Node → Option Role
  | mk _ role _ _ _ => role

def span : Node → Span
  | mk _ _ span _ _ => span

/-- The characters of a node without parts. -/
def text : Node → List Char
  | mk _ _ _ text _ => text

def children : Node → List Node
  | mk _ _ _ _ children => children

def start (node : Node) : Position := node.span.start

def stop (node : Node) : Position := node.span.stop

instance : Inhabited Node := ⟨mk .program none default [] []⟩

/-- The same node in another role. -/
def withRole (role : Role) : Node → Node
  | mk kind _ span text children => mk kind (some role) span text children

def withKind (kind : Kind) : Node → Node
  | mk _ role span text children => mk kind role span text children

/-- The first child that plays the given role. -/
def part? (node : Node) (role : Role) : Option Node :=
  node.children.find? fun child ↦ child.role == some role

/-- The children without the comments among them. -/
def parts (node : Node) : List Node := node.children.filter fun child ↦ child.kind != .comment

mutual

/-- How many nodes the tree has. -/
def size : Node → Nat
  | mk _ _ _ _ children => 1 + sizes children

def sizes : List Node → Nat
  | [] => 0
  | node :: rest => size node + sizes rest

end

theorem sizes_append (a b : List Node) : sizes (a ++ b) = sizes a + sizes b := by
  induction a with
  | nil => simp [sizes]
  | cons node rest ih => simp [sizes, ih, Nat.add_assoc]

theorem size_eq (node : Node) : node.size = 1 + sizes node.children := by
  cases node
  rfl

theorem size_lt_of_mem {node child : Node} (h : child ∈ node.children) : child.size < node.size := by
  rw [size_eq node]
  have aux : ∀ nodes : List Node, child ∈ nodes → child.size ≤ sizes nodes := by
    intro nodes
    induction nodes with
    | nil => simp
    | cons first rest ih =>
      intro hmem
      simp only [sizes]
      rcases List.mem_cons.1 hmem with rfl | hrest
      · omega
      · have := ih hrest
        omega
  have := aux _ h
  omega

mutual

/-- The tree's nodes, each before its children. -/
def preorder : Node → List Node
  | mk kind role span text children =>
    mk kind role span text children :: preorders children

def preorders : List Node → List Node
  | [] => []
  | node :: rest => preorder node ++ preorders rest

end

/-- The nodes of the given trees in document order, found with a list of what is still to visit. -/
def walk : List Node → List Node
  | [] => []
  | node :: rest => node :: walk (node.children ++ rest)
termination_by pending => sizes pending
decreasing_by
  rw [sizes_append, sizes, size_eq]
  omega

end Node

end ClassScript.JavaScript
