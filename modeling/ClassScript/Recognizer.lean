import ClassScript.Recognizer.Scan

/-!
# Recognizers

A recognizer finds the class of a script and files what it declares. It keeps its state from one use to
the next, so it recognizes one class only: once a class has been found, a further one is refused.
-/

namespace ClassScript

/-- The recognizer of the class with a given name. -/
structure Recognizer where
  moduleName : Text
  className : Text
  state : Recognizer.State := .fresh

namespace Recognizer

open JavaScript (Node)

/-- The only statement of a script, which must be a class. -/
def findClass (statements : List Node) : Except FailureCause ClassShape :=
  match statements with
  | [] => .error .badScript
  | [statement] =>
    match statementShape? statement with
    | some shape => .ok shape
    | none => .error .badScript
  | _ :: _ :: _ => .error .tooManyStatements

/-- Recognizes the class that the statements of a script are. -/
def recognize (recognizer : Recognizer) (statements : List Node) :
    Recognizer × Except Fault ClassAnalysis :=
  match findClass statements with
  | .error cause =>
    (recognizer, .error (.failure ⟨cause, recognizer.moduleName, recognizer.className⟩))
  | .ok shape =>
    match shape.superclass with
    | .error fault => (recognizer, .error (.escape fault))
    | .ok superclass =>
      let analysis :=
        opened recognizer.moduleName recognizer.className superclass none shape.function
      match recognizer.state.matchClass (bindSides shape.function.functionParameters) with
      | (state, .error transition) => ({ recognizer with state }, .error (.transition transition))
      | (state, .ok ()) =>
        match shape.function.body? with
        | none => ({ recognizer with state }, .ok analysis)
        | some body =>
          let (state, result) := scan [.enter [] body] state analysis
          ({ recognizer with state }, result)

end Recognizer

end ClassScript
