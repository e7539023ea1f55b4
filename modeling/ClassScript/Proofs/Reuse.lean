import ClassScript.Proofs.Geometry

/-!
# Using a recognizer again

A recognizer can be used for one class only. Scripts without a class are refused one after the other
and leave it waiting. The first script with a class gets the answer of a fresh recognizer. After that
the recognizer is spent: it gives no further analysis and never leaves its phase, which tells whether
the class was recognized or a keyword call was open when a fault was found.
-/

namespace ClassScript.Recognizer

open JavaScript (Node)

/-- The only statement of a script is a class, and the name of the superclass can be decoded. -/
def HasClass (statements : List Node) : Prop :=
  ∃ statement shape superclass, statements = [statement] ∧
    statementShape? statement = some shape ∧ shape.superclass = .ok superclass

inductive RefusedFor (moduleName className : Text) : List Node → Fault → Prop where
  | crowded {statements : List Node} (h : 1 < statements.length) :
    RefusedFor moduleName className statements (.failure ⟨.tooManyStatements, moduleName, className⟩)
  | empty : RefusedFor moduleName className [] (.failure ⟨.badScript, moduleName, className⟩)
  | shapeless {statement : Node} (h : statementShape? statement = none) :
    RefusedFor moduleName className [statement] (.failure ⟨.badScript, moduleName, className⟩)
  | undecodable {statement : Node} {shape : ClassShape} {fault : JavaScript.EscapeFault}
    (hshape : statementShape? statement = some shape) (h : shape.superclass = .error fault) :
    RefusedFor moduleName className [statement] (.escape fault)

/-! ## One use -/

/-- A script without a class is refused in every state, which stays as it is. -/
theorem recognize_of_not_hasClass (recognizer : Recognizer) {statements : List Node}
    (h : ¬HasClass statements) :
    ∃ fault, RefusedFor recognizer.moduleName recognizer.className statements fault ∧
      recognizer.recognize statements = (recognizer, .error fault) := by
  cases statements with
  | nil => exact ⟨_, .empty, rfl⟩
  | cons statement rest =>
    cases rest with
    | cons second others => exact ⟨_, .crowded (by simp), rfl⟩
    | nil =>
      cases hshape : statementShape? statement with
      | none =>
        refine ⟨_, .shapeless hshape, ?_⟩
        simp only [recognize, findClass, hshape]
      | some shape =>
        cases hsuper : shape.superclass with
        | error fault =>
          refine ⟨_, .undecodable hshape hsuper, ?_⟩
          simp only [recognize, findClass, hshape, hsuper]
        | ok superclass => exact absurd ⟨statement, shape, superclass, rfl, hshape, hsuper⟩ h

/-- A spent recognizer answers a script with a class by refusing the step. -/
theorem recognize_of_spent {recognizer : Recognizer} (hphase : recognizer.state.phase ≠ .awaitingClass)
    {statements : List Node} (h : HasClass statements) :
    recognizer.recognize statements =
      (recognizer, .error (.transition ⟨recognizer.state.phase, .awaitingClass⟩)) := by
  obtain ⟨statement, shape, superclass, rfl, hshape, hsuper⟩ := h
  simp only [recognize, findClass, hshape, hsuper, State.matchClass_of_ne hphase]

/-- The phase in which an answer leaves a recognizer that has found a class. -/
def phaseAfter : Except Fault ClassAnalysis → Phase
  | .ok _ => .awaitingKeyword
  | .error _ => .keywordOpen

theorem phaseAfter_ne (answer : Except Fault ClassAnalysis) : phaseAfter answer ≠ .awaitingClass := by
  cases answer with
  | ok analysis => exact Phase.noConfusion
  | error fault => exact Phase.noConfusion

/-- A body can only fail while a keyword call is open, and all calls are closed in the end. -/
theorem phase_scan_body_eq (sides : Sides) (body : Node) (analysis : ClassAnalysis) :
    (scan [.enter [] body] (.between sides) analysis).1.phase =
      phaseAfter (scan [.enter [] body] (.between sides) analysis).2 := by
  have hrun : Proceeds sides _ _ _ := scan_between body (scansBodies body.size) [] [] analysis
  cases hdescribed : (membersOf (outermost sides body)).foldlM file analysis with
  | ok filed =>
    rw [hdescribed] at hrun
    have hend : scan [.enter [] body] (.between sides) analysis = scan [] (.between sides) filed := hrun
    rw [hend, scan]
    rfl
  | error fault =>
    rw [hdescribed] at hrun
    obtain ⟨keyword, hend⟩ := hrun
    rw [hend]
    rfl

/-- A class leaves a fresh recognizer in the phase that goes with its answer. -/
theorem phase_recognize_fresh (moduleName className : Text) {statements : List Node}
    (h : HasClass statements) :
    ((Recognizer.mk moduleName className .fresh).recognize statements).1.state.phase =
      phaseAfter ((Recognizer.mk moduleName className .fresh).recognize statements).2 := by
  obtain ⟨statement, shape, superclass, rfl, hshape, hsuper⟩ := h
  simp only [recognize, findClass, hshape, hsuper, State.matchClass_fresh]
  cases shape.function.body? with
  | none => rfl
  | some body => exact phase_scan_body_eq _ body _

theorem names_recognize (recognizer : Recognizer) (statements : List Node) :
    (recognizer.recognize statements).1.moduleName = recognizer.moduleName ∧
      (recognizer.recognize statements).1.className = recognizer.className := by
  unfold recognize
  cases findClass statements with
  | error cause => exact ⟨rfl, rfl⟩
  | ok shape =>
    dsimp only
    cases shape.superclass with
    | error fault => exact ⟨rfl, rfl⟩
    | ok superclass =>
      dsimp only
      obtain ⟨state, answer⟩ :=
        recognizer.state.matchClass (bindSides shape.function.functionParameters)
      cases answer with
      | error transition => exact ⟨rfl, rfl⟩
      | ok _ =>
        dsimp only
        cases shape.function.body? with
        | none => exact ⟨rfl, rfl⟩
        | some body => exact ⟨rfl, rfl⟩

/-! ## One use after the other -/

abbrev Step := Phase × Except Fault ClassAnalysis

def recognizeEach (recognizer : Recognizer) : List (List Node) → List Step
  | [] => []
  | statements :: rest =>
    let (next, answer) := recognizer.recognize statements
    (next.state.phase, answer) :: recognizeEach next rest

/-- What a spent recognizer does: it stays in its phase, and it refuses a script without a class for
what the script is, and a script with a class for its phase. -/
def Spent (moduleName className : Text) (phase : Phase) (statements : List Node) (step : Step) : Prop :=
  step.1 = phase ∧ ∃ fault, step.2 = .error fault ∧
    (¬HasClass statements ∧ RefusedFor moduleName className statements fault ∨
      HasClass statements ∧ fault = .transition ⟨phase, .awaitingClass⟩)

/-- The course that the uses of a recognizer take, from the first on. -/
inductive Course (moduleName className : Text) : List (List Node) → List Step → Prop where
  | unused : Course moduleName className [] []
  /-- A script without a class is refused for what it is, and the recognizer goes on waiting. -/
  | refused {statements : List Node} {fault : Fault} {rest : List (List Node)} {steps : List Step}
    (hclass : ¬HasClass statements) (hfault : RefusedFor moduleName className statements fault)
    (hrest : Course moduleName className rest steps) :
    Course moduleName className (statements :: rest) ((.awaitingClass, .error fault) :: steps)
  /-- The first script with a class is answered as by a fresh recognizer, and the recognizer is
  spent. -/
  | found {statements : List Node} {answer : Except Fault ClassAnalysis} {rest : List (List Node)}
    {steps : List Step} (hclass : HasClass statements)
    (hanswer : ((Recognizer.mk moduleName className .fresh).recognize statements).2 = answer)
    (hrest : List.Forall₂ (Spent moduleName className (phaseAfter answer)) rest steps) :
    Course moduleName className (statements :: rest) ((phaseAfter answer, answer) :: steps)

/-- A spent recognizer stays spent, script after script. -/
theorem recognizeEach_of_spent {recognizer : Recognizer}
    (hphase : recognizer.state.phase ≠ .awaitingClass) (scripts : List (List Node)) :
    List.Forall₂ (Spent recognizer.moduleName recognizer.className recognizer.state.phase) scripts
      (recognizer.recognizeEach scripts) := by
  induction scripts with
  | nil => exact .nil
  | cons statements rest ih =>
    rw [recognizeEach]
    by_cases hclass : HasClass statements
    · rw [recognize_of_spent hphase hclass]
      exact .cons ⟨rfl, _, rfl, .inr ⟨hclass, rfl⟩⟩ ih
    · obtain ⟨fault, hfault, hrecognize⟩ := recognize_of_not_hasClass recognizer hclass
      rw [hrecognize]
      exact .cons ⟨rfl, fault, rfl, .inl ⟨hclass, hfault⟩⟩ ih

/-- A fresh recognizer refuses scripts until the first one with a class, gives the answer for it, and
then none any more. -/
theorem recognizeEach_course (moduleName className : Text) (scripts : List (List Node)) :
    Course moduleName className scripts
      ((Recognizer.mk moduleName className .fresh).recognizeEach scripts) := by
  induction scripts with
  | nil => exact .unused
  | cons statements rest ih =>
    rw [recognizeEach]
    by_cases hclass : HasClass statements
    · have hphase := phase_recognize_fresh moduleName className hclass
      have hspent := recognizeEach_of_spent (hphase ▸ phaseAfter_ne _) rest
      rw [(names_recognize _ statements).1, (names_recognize _ statements).2, hphase] at hspent
      dsimp only
      rw [hphase]
      exact .found hclass rfl hspent
    · obtain ⟨fault, hfault, hrecognize⟩ :=
        recognize_of_not_hasClass (Recognizer.mk moduleName className .fresh) hclass
      rw [hrecognize]
      exact .refused hclass hfault ih

end ClassScript.Recognizer
