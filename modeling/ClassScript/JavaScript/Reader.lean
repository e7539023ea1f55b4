import ClassScript.JavaScript.Node
import ClassScript.JavaScript.Lexeme
import ClassScript.JavaScript.Semicolon

/-!
# Reading state

A reader goes through the characters of a script and builds nodes. It keeps the characters still to be
read with their position, the end of the last token, and the comments that it has passed and not yet
put into a node. A comment belongs to the innermost node that has a token on either side of it: whoever
takes the next token of a node first releases the comments held.

Reading fails at the token that fits nowhere, or because the text has ended.
-/

namespace ClassScript.JavaScript

/-- The characters still to be read and the position of the first of them. -/
structure Cursor where
  rest : List Char
  position : Position

namespace Cursor

/-- After the given lexeme, which the rest must start with. -/
def past (cursor : Cursor) (split : Lexeme.Split) : Cursor :=
  ⟨split.2, cursor.position.after split.1⟩

def pastSpace (cursor : Cursor) : Cursor :=
  cursor.past (cursor.rest.takeWhile isSpace, cursor.rest.dropWhile isSpace)

/-- The next lexeme as a node, and what follows it. -/
def leaf (cursor : Cursor) (kind : Kind) (split : Lexeme.Split) : Node × Cursor :=
  let next := cursor.past split
  (.mk kind none ⟨cursor.position, next.position⟩ split.1 [], next)

/-- A comment that starts here. HTML-like ones count only with `html`. -/
def comment? (html : Bool) (cursor : Cursor) : Option (Node × Cursor) :=
  match Lexeme.comment? cursor.rest with
  | some split => some (cursor.leaf .comment split)
  | none =>
    if html then (Lexeme.htmlComment? cursor.rest).map (cursor.leaf .htmlComment) else none

theorem length_pastSpace (cursor : Cursor) :
    cursor.pastSpace.rest.length ≤ cursor.rest.length :=
  (List.dropWhile_sublist isSpace).length_le

theorem length_comment {html : Bool} {cursor next : Cursor} {comment : Node}
    (h : cursor.comment? html = some (comment, next)) : next.rest.length < cursor.rest.length := by
  unfold comment? at h
  split at h
  · next split hsplit =>
    simp only [leaf, past, Option.some.injEq, Prod.mk.injEq] at h
    rw [← h.2]
    exact Lexeme.length_comment hsplit
  · split at h
    · obtain ⟨split, hsplit, heq⟩ := Option.map_eq_some_iff.1 h
      simp only [leaf, past, Prod.mk.injEq] at heq
      rw [← heq.2]
      exact Lexeme.length_htmlComment hsplit
    · simp at h

/-- Passes blanks and comments; the comments are put in front of those already held. -/
def pastTrivia (html : Bool) (cursor : Cursor) (held : List Node) : Cursor × List Node :=
  match _h : cursor.pastSpace.comment? html with
  | some (comment, next) => pastTrivia html next (comment :: held)
  | none => (cursor.pastSpace, held)
termination_by cursor.rest.length
decreasing_by exact Nat.lt_of_lt_of_le (length_comment _h) cursor.length_pastSpace

/-- Passes blanks and comments up to the next token or up to the place of an automatic semicolon,
whichever comes first, and tells whether it is a semicolon. -/
def seek (settled : Bool) (cursor : Cursor) (held : List Node) : Bool × Cursor × List Node :=
  if Semicolon.mayOmit settled cursor.rest then (true, cursor, held)
  else
    match _h : cursor.pastSpace.comment? false with
    | some (comment, next) => seek settled next (comment :: held)
    | none => (false, cursor.pastSpace, held)
termination_by cursor.rest.length
decreasing_by exact Nat.lt_of_lt_of_le (length_comment _h) cursor.length_pastSpace

end Cursor

/-- Why a text cannot be read: the position of the token that fits nowhere, or the end of the text. -/
inductive Fault where
  | unexpected (position : Position)
  | ended
deriving DecidableEq, Repr

structure Reading where
  cursor : Cursor
  /-- The end of the last token. -/
  stop : Position
  /-- The comments passed and not yet put into a node, the last one first. -/
  held : List Node
  /-- Whether an HTML-like comment would not be recognised here. -/
  plain : Bool
  /-- A shorthand property with a value, which is an error unless its object turns out to be a
  pattern. -/
  unsettled : Option Position

abbrev Reader := StateT Reading (Except Fault)

namespace Reader

def rest : Reader (List Char) := return (← get).cursor.rest

def position : Reader Position := return (← get).cursor.position

/-- Refuses the token at a position. -/
def refuse {α : Type} (position : Position) : Reader α := throw (.unexpected position)

/-- Refuses what comes next. -/
def fail {α : Type} : Reader α := do
  match (← get).cursor.rest with
  | [] => throw .ended
  | _ => throw (.unexpected (← get).cursor.position)

/-- Takes a lexeme that the rest is known to start with. -/
def take (split : Lexeme.Split) : Reader Unit := modify fun s ↦
  let next := s.cursor.past split
  { s with cursor := next, stop := next.position, plain := false }

/-- Takes the given characters, or fails. -/
def expect (token : String) : Reader Unit := do
  let cs ← rest
  if token.toList.isPrefixOf cs then take (token.toList, cs.drop token.length) else fail

/-- Takes a lexeme as a node without parts. -/
def leaf (kind : Kind) (split : Lexeme.Split) : Reader Node := do
  let (node, _) := (← get).cursor.leaf kind split
  take split
  return node

/-- Passes blanks and comments, which are held. HTML-like comments count where neither an operator nor
an automatic semicolon could come. -/
def pass : Reader Unit := modify fun s ↦
  let (cursor, held) := s.cursor.pastTrivia (!s.plain) s.held
  { s with cursor, held }

/-- Passes blanks and comments after an operand, where `<` is an operator. -/
def passOperand : Reader Unit := modify fun s ↦
  let (cursor, held) := s.cursor.pastTrivia false s.held
  { s with cursor, held }

/-- The comments held, in the order of the source. -/
def release : Reader (List Node) := modifyGet fun s ↦ (s.held.reverse, { s with held := [] })

/-- Passes blanks and comments and releases the comments. -/
def gap : Reader (List Node) := do
  pass
  release

/-- As `gap`, after an operand. -/
def operandGap : Reader (List Node) := do
  passOperand
  release

/-- The end of the last of the given comments, or of the last token when there is none. -/
def extendTo (comments : List Node) : Reader Unit :=
  match comments.getLast? with
  | some comment => modify fun s ↦ { s with stop := comment.stop }
  | none => pure ()

/-- Ends a statement with a semicolon, written or automatic, and gives the comments before it. Without
one, the comments stay held. -/
def semicolon? (settled : Bool) : Reader (Option (List Node)) := do
  let s ← get
  let (omitted, cursor, held) := s.cursor.seek settled s.held
  set { s with cursor, held }
  if omitted then
    let comments ← release
    extendTo comments
    return some comments
  else if cursor.rest.head? = some ';' then
    let comments ← release
    expect ";"
    return some comments
  else return none

def semicolon (settled : Bool) : Reader (List Node) := do
  match ← semicolon? settled with
  | some comments => return comments
  | none => fail

/-- Lets a block take an automatic semicolon after its closing brace, together with the comments
before it. Without one, the comments stay held. -/
def blockEnd (settled : Bool) : Reader (List Node) := do
  let s ← get
  let (omitted, cursor, held) := s.cursor.seek settled s.held
  set { s with cursor, held, plain := !omitted }
  if omitted then
    let comments ← release
    extendTo comments
    return comments
  else return []

/-- A node from a start to the end of the last token. -/
def node (kind : Kind) (start : Position) (children : List Node) : Reader Node :=
  return .mk kind none ⟨start, (← get).stop⟩ [] children

/-- The name that comes next, as written. -/
def word? : Reader (Option Lexeme.Split) := return Lexeme.name? (← rest)

/-- Whether the given word comes next. -/
def atWord (word : String) : Reader Bool := do
  match ← word? with
  | some split => return split.1 == word.toList
  | none => return false

/-- Whether the given punctuation comes next. -/
def at? (punctuator : String) : Reader Bool := return Lexeme.punctuator? (← rest) == some punctuator

end Reader

/-- Where an expression stands. -/
structure Context where
  /-- An automatic semicolon may end it. -/
  ends : Bool
  /-- The operator `in` may occur in it. -/
  allowsIn : Bool

namespace Context

/-- Between brackets. -/
def inner : Context := ⟨false, true⟩

/-- Directly in a statement. -/
def statement : Context := ⟨true, true⟩

/-- At the head of a loop. -/
def loopHead : Context := ⟨false, false⟩

end Context

/-- What may follow an operand. -/
inductive Follow where
  | ended
  | word (split : Lexeme.Split)
  | punctuator (token : String)
  | template
  | other
deriving DecidableEq

namespace Reader

/-- Looks at what follows an operand, past blanks and comments, which are held. -/
def follow (context : Context) : Reader Follow := do
  let s ← get
  let (omitted, cursor, held) :=
    if context.ends then s.cursor.seek false s.held
    else
      let (cursor, held) := s.cursor.pastTrivia false s.held
      (false, cursor, held)
  set { s with cursor, held }
  if omitted then return .ended
  else
    match Lexeme.name? cursor.rest with
    | some split => return .word split
    | none =>
      match Lexeme.punctuator? cursor.rest with
      | some token => return .punctuator token
      | none => return if cursor.rest.head? = some '\x60' then .template else .other

end Reader

/-- What a reader can be asked to read where the grammar is recursive. -/
inductive Goal where
  | statement
  /-- Expressions with commas between them. -/
  | expression (context : Context)
  | assignment (context : Context)
  /-- Operands joined by operators that bind at least as tightly as the level. -/
  | binary (context : Context) (level : Nat)
  | unary (context : Context)
  /-- An operand with the calls and accesses after it. -/
  | operand (context : Context)
  /-- What `new` is applied to. -/
  | constructed (context : Context)
  /-- A name or a pattern that declares names. -/
  | binding
  /-- A block; `settled` says that no operator can follow it. -/
  | block (settled : Bool)
  | markup

/-- How to read the parts of a construct. The bound is more than the number of characters still to be
read, so it bounds every repetition. -/
structure Rules where
  bound : Nat
  read : Goal → Reader Node

end ClassScript.JavaScript
