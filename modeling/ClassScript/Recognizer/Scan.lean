import ClassScript.Recognizer.Shape

/-!
# Scanning the body of a class

The nodes of a body are visited in document order with a list of visits still to make; a node is left
after all that is below it. The state decides at each node whether a keyword call opens or closes and
whether the node is a member to be filed. A nested class is scanned on its own, from a fresh state,
when the member that declares it is entered.
-/

namespace ClassScript.Recognizer

open JavaScript (Node EscapeFault)

/-- Why a class is not recognized. -/
inductive Fault where
  | failure (failure : Failure)
  | escape (fault : EscapeFault)
  | transition (transition : Transition)
deriving DecidableEq

def Fault.message : Fault → Text
  | failure f => f.message
  | escape f => f.message
  | transition t => t.message

inductive Visit where
  | enter (path : Path) (node : Node)
  | leave (path : Path)

namespace Visit

/-- Visits to the given siblings, the first of which has the given index. -/
def children (path : Path) : (index : Nat) → List Node → List Visit
  | _, [] => []
  | index, node :: rest => enter (index :: path) node :: children path (index + 1) rest

/-- More than the visits that a visit leads to weigh together. -/
def weight : Visit → Nat
  | enter _ node => 2 * node.size
  | leave _ => 1

def weights : List Visit → Nat
  | [] => 0
  | visit :: rest => visit.weight + weights rest

theorem weights_append (a b : List Visit) : weights (a ++ b) = weights a + weights b := by
  induction a with
  | nil => simp [weights]
  | cons visit rest ih => simp [weights, ih, Nat.add_assoc]

theorem weights_children (path : Path) (index : Nat) (nodes : List Node) :
    weights (children path index nodes) = 2 * Node.sizes nodes := by
  induction nodes generalizing index with
  | nil => simp [children, weights, Node.sizes]
  | cons node rest ih =>
    simp only [children, weights, weight, Node.sizes, ih]
    omega

/-- What is left to visit when a node has been entered. -/
def below (path : Path) (node : Node) (rest : List Visit) : List Visit :=
  children path 0 node.children ++ leave path :: rest

theorem weights_below (path : Path) (node : Node) (rest : List Visit) :
    weights (below path node rest) < weights (enter path node :: rest) := by
  simp only [below, weights_append, weights_children, weights, weight]
  rw [Node.size_eq node]
  omega

end Visit

/-- The facts of a class before its body is scanned. -/
def opened (moduleName className superclass : Text) (site : Option Site) (function : Node) :
    ClassAnalysis :=
  .mk { moduleName, className, superclass := some superclass, start := some function.start, site } []

/-- The name of a class nested in the given one. -/
def nestedName (parent : ClassAnalysis) (name : Text) : Text :=
  parent.facts.className ++ ClassAnalysis.nestedSeparator ++ name

/-- What is to be done with a member of the open literal. -/
inductive Filing where
  /-- It has no name of its own. -/
  | skip
  | nest (name : Text)
  | declare (aspect : Aspect) (name : Text) (value : Option Bool)
  | refuse (fault : Fault)

/-- How a member is filed under a keyword. -/
def filing (keyword : Keyword) (analysis : ClassAnalysis) (member : Node) : Filing :=
  match member.key with
  | .error fault => .refuse (.escape fault)
  | .ok .computed => .skip
  | .ok .missing => .skip
  | .ok (.named name) =>
    let value := member.memberValue
    if keyword.name = Text.ofString "nest" then .nest name
    else if keyword.name = Text.ofString "am" then
      if value.isBoolean then .declare (.fixed .flags) name (some (value.kind == .true))
      else .refuse (.failure ⟨.badFlag name, analysis.facts.moduleName, analysis.facts.className⟩)
    else .declare (aspectOf keyword.name keyword.side (value.kind == .null)) name none

/-- Where a member of the open literal stands. -/
def memberSite (keyword : Keyword) (member : Node) : Site :=
  ⟨keyword.inside, member.start, member.stop⟩

/-- Makes the visits one after the other. The state is that of the moment when the scan ends or
fails. -/
def scan (visits : List Visit) (state : State) (analysis : ClassAnalysis) :
    State × Except Fault ClassAnalysis :=
  match visits with
  | [] => (state, .ok analysis)
  | .leave path :: rest => scan rest (state.close path).1 analysis
  | .enter path node :: rest =>
    if state.phase = .awaitingKeyword then
      match keywordCall? state.sides path node with
      | some keyword =>
        match state.openKeyword keyword with
        | (state, .ok ()) => scan (Visit.below path node rest) state analysis
        | (state, .error transition) => (state, .error (.transition transition))
      | none => scan (Visit.below path node rest) state analysis
    else
      match state.keyword with
      | some keyword =>
        if node.isMember ∧ path.tail = keyword.literal then
          match filing keyword analysis node with
          | .skip => scan (Visit.below path node rest) state analysis
          | .declare aspect name value =>
            let declaration : Declaration := { site := memberSite keyword node, value }
            scan (Visit.below path node rest) state (analysis.declare aspect name declaration)
          | .refuse fault => (state, .error fault)
          | .nest name =>
            let className := nestedName analysis name
            match _h : memberShape? node with
            | none =>
              (state, .error (.failure ⟨.badScript, analysis.facts.moduleName, className⟩))
            | some shape =>
              match shape.superclass with
              | .error fault => (state, .error (.escape fault))
              | .ok superclass =>
                let site : Site := ⟨keyword.inside, shape.function.start, node.stop⟩
                let inner := opened analysis.facts.moduleName className superclass (some site)
                  shape.function
                match State.fresh.matchClass (bindSides shape.function.functionParameters) with
                | (_, .error transition) => (state, .error (.transition transition))
                | (innerState, .ok ()) =>
                  match _hb : shape.function.body? with
                  | none => scan (Visit.below path node rest) state (analysis.nest name inner)
                  | some body =>
                    match (scan [.enter [] body] innerState inner).2 with
                    | .error fault => (state, .error fault)
                    | .ok inner => scan (Visit.below path node rest) state (analysis.nest name inner)
        else scan (Visit.below path node rest) state analysis
      | none => scan (Visit.below path node rest) state analysis
termination_by Visit.weights visits
decreasing_by
  · simp [Visit.weights, Visit.weight]
  all_goals first
    | exact Visit.weights_below path node rest
    | (have h₁ := size_memberShape _h
       have h₂ := size_body _hb
       simp only [Visit.weights, Visit.weight]
       omega)

end ClassScript.Recognizer
