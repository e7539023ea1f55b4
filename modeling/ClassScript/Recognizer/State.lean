import ClassScript.Aspect
import ClassScript.Position
import ClassScript.Table

/-!
# The state of a recognizer

A recognizer first waits for the class, then for a keyword call, and while a keyword call is open it
looks at nothing but the members of the call's object literal. Nodes are told apart by their paths.
-/

namespace ClassScript.Recognizer

/-- Where a node stands in a tree: its index among its siblings, then those of its ancestors. -/
abbrev Path := List Nat

inductive Phase where
  | awaitingClass | awaitingKeyword | keywordOpen
deriving DecidableEq, Repr

def Phase.name : Phase → Text
  | awaitingClass => "awaiting_class"
  | awaitingKeyword => "awaiting_keyword"
  | keywordOpen => "keyword_open"

/-- An open keyword call. -/
structure Keyword where
  call : Path
  /-- The object literal whose members are declared. -/
  literal : Path
  /-- Where that literal starts. -/
  inside : Position
  side : Side
  name : Text
deriving DecidableEq

/-- The names of the two sides within a class. -/
abbrev Sides := Table Text Side

structure State where
  phase : Phase := .awaitingClass
  sides : Sides := []
  keyword : Option Keyword := none

/-- A step that the phase does not allow. -/
structure Transition where
  phase : Phase
  expected : Phase
deriving DecidableEq

def Transition.message (t : Transition) : Text :=
  Text.ofString "Invalid recognizer transition (phase=" ++ t.phase.name ++
    Text.ofString " expected=" ++ t.expected.name ++ Text.ofString ")"

namespace State

/-- Nothing seen yet. -/
def fresh : State := {}

/-- Refuses a step that is meant for another phase. -/
def expect (phase : Phase) (state : State) : Except Transition Unit :=
  if state.phase = phase then .ok () else .error ⟨state.phase, phase⟩

/-- Goes on from the class to its keyword calls; gives the state that it leaves, and whether the step
was refused. -/
def matchClass (sides : Sides) (state : State) : State × Except Transition Unit :=
  match state.expect .awaitingClass with
  | .ok () => ({ state with sides, phase := .awaitingKeyword }, .ok ())
  | .error transition => (state, .error transition)

def openKeyword (keyword : Keyword) (state : State) : State × Except Transition Unit :=
  match state.expect .awaitingKeyword with
  | .ok () => ({ state with keyword := some keyword, phase := .keywordOpen }, .ok ())
  | .error transition => (state, .error transition)

/-- Closes the open keyword if the path is that of its call, and tells whether it was. -/
def close (path : Path) (state : State) : State × Bool :=
  match state.keyword with
  | some keyword =>
    if keyword.call = path then ({ state with keyword := none, phase := .awaitingKeyword }, true)
    else (state, false)
  | none => (state, false)

theorem matchClass_of_phase {state : State} (h : state.phase = .awaitingClass) (sides : Sides) :
    state.matchClass sides = ({ state with sides, phase := .awaitingKeyword }, .ok ()) := by
  rw [matchClass, expect, if_pos h]

theorem matchClass_of_ne {state : State} (h : state.phase ≠ .awaitingClass) (sides : Sides) :
    state.matchClass sides = (state, .error ⟨state.phase, .awaitingClass⟩) := by
  rw [matchClass, expect, if_neg h]

theorem openKeyword_of_phase {state : State} (h : state.phase = .awaitingKeyword)
    (keyword : Keyword) :
    state.openKeyword keyword =
      ({ state with keyword := some keyword, phase := .keywordOpen }, .ok ()) := by
  rw [openKeyword, expect, if_pos h]

theorem openKeyword_of_ne {state : State} (h : state.phase ≠ .awaitingKeyword) (keyword : Keyword) :
    state.openKeyword keyword = (state, .error ⟨state.phase, .awaitingKeyword⟩) := by
  rw [openKeyword, expect, if_neg h]

end State

end ClassScript.Recognizer
