import ClassScript.Proofs.Gaps
import ClassScript.Proofs.Geometry
import ClassScript.Proofs.Stripping

/-!
# Comments never count in recognition

Without some of its comments the nodes of a class stand at other places among their siblings, and a scan
tells them apart by other paths. The class, its keyword calls and its declared members are the same up
to the comments in them all the same, so that it is described in the same way. Hence a recognizer gives
the same answer to a script without some of its comments.
-/

namespace ClassScript.Recognizer

open JavaScript (Node Script)

/-! ## Classes and keyword calls -/

/-- The same class without some of the comments in it. -/
structure ClassShape.Strips (shape shape' : ClassShape) : Prop where
  base : Option.Rel Node.Strips shape.base shape'.base
  function : shape.function.Strips shape'.function

structure KeywordCall.Strips (call call' : KeywordCall) : Prop where
  side : call.side = call'.side
  name : call.name = call'.name
  literal : call.literal.Strips call'.literal

section Shapes

variable {node node' : Node}

theorem ClassShape.Strips.superclass {shape shape' : ClassShape} (h : shape.Strips shape') :
    shape.superclass = shape'.superclass := by
  have hbase := h.base
  rw [ClassShape.superclass, ClassShape.superclass]
  generalize shape.base = base?, shape'.base = base'? at hbase
  cases hbase with
  | none => rfl
  | some hstrips => exact hstrips.stringValue

theorem rel_classShape? (h : node.Strips node') :
    Option.Rel ClassShape.Strips (classShape? node) (classShape? node') := by
  have hcallee := h.rel_part? .callee
  have hlast := rel_getLast? h.callArguments
  rw [classShape?, classShape?, h.kind]
  generalize node.part? .callee = callee?, node'.part? .callee = callee'? at hcallee
  generalize node.callArguments.getLast? = last?, node'.callArguments.getLast? = last'? at hlast
  split
  · exact .some ⟨.none, h⟩
  · split
    · cases hcallee with
      | none => exact .none
      | @some callee callee' hcallee =>
        cases hlast with
        | none => exact .none
        | @some script script' hscript =>
          have hbase := hcallee.rel_part? .target
          dsimp only
          generalize callee.part? .target = base?, callee'.part? .target = base'? at hbase
          cases hbase with
          | none => exact .none
          | some hbase =>
            dsimp only
            rw [hcallee.kind, hbase.kind, hcallee.propertyName?, isScript, hscript.kind, isScript]
            split
            · exact .some ⟨.some hbase, hscript⟩
            · exact .none
    · exact .none

theorem rel_statementShape? (h : node.Strips node') :
    Option.Rel ClassShape.Strips (statementShape? node) (statementShape? node') := by
  rw [statementShape?, statementShape?, h.kind]
  split
  · exact .some ⟨.none, h⟩
  · exact rel_bind h.rel_expression? fun _ _ _ _ hexpression ↦ rel_classShape? hexpression

theorem rel_memberShape? (h : node.Strips node') :
    Option.Rel ClassShape.Strips (memberShape? node) (memberShape? node') :=
  rel_bind h.memberValue.rel_unwrapped? fun _ _ _ _ hvalue ↦ rel_classShape? hvalue

theorem bindSides_eq {parameters parameters' : List Node}
    (h : List.Forall₂ Node.Strips parameters parameters') :
    bindSides parameters = bindSides parameters' := by
  cases h with
  | nil => rfl
  | cons hfirst hrest =>
    cases hrest with
    | nil => simp only [bindSides, hfirst.kind, hfirst.name]
    | cons hsecond _ =>
      simp only [bindSides, hfirst.kind, hfirst.name, hsecond.kind, hsecond.name]

/-- A keyword call is still one without the comments in it, for the same keyword and side. -/
theorem rel_ofNode? (sides : Sides) (h : node.Strips node') :
    Option.Rel KeywordCall.Strips (KeywordCall.ofNode? sides node) (KeywordCall.ofNode? sides node') := by
  rw [KeywordCall.ofNode?, KeywordCall.ofNode?, h.kind]
  apply rel_bind_self
  intro _ _
  apply rel_bind (h.rel_part? .callee)
  intro callee _ callee' _ hcallee
  rw [hcallee.kind, hcallee.propertyName?]
  apply rel_bind_self
  intro _ _
  apply rel_bind (hcallee.rel_part? .target)
  intro target _ target' _ htarget
  rw [htarget.kind, htarget.name]
  apply rel_bind_self
  intro _ _
  apply rel_bind_self
  intro side _
  apply rel_bind_self
  intro name _
  have hargs := h.callArguments
  generalize node.callArguments = args, node'.callArguments = args' at hargs
  cases hargs with
  | nil => exact .none
  | cons hliteral hrest =>
    cases hrest with
    | nil =>
      dsimp only
      rw [hliteral.kind]
      split
      · exact .some ⟨rfl, rfl, hliteral⟩
      · exact .none
    | cons _ _ => exact .none

end Shapes

/-- A comment is no keyword call, and has none in it. -/
theorem outermost_comment (sides : Sides) {comment : Node} (horderly : comment.isOrderly = true)
    (hkind : comment.kind = .comment) : outermost sides comment = [] := by
  rw [outermost_eq, JavaScript.Node.children_of_comment horderly hkind, List.flatMap_nil]
  cases hcall : KeywordCall.ofNode? sides comment with
  | none => rfl
  | some call =>
    have hcontra := (ofNode?_eq_some hcall).1
    rw [hkind] at hcontra
    cases hcontra

/-- The outermost keyword calls of a tree are found without its comments. -/
theorem forall₂_outermost (sides : Sides) {node node' : Node} (horderly : node.isOrderly = true)
    (h : node.Strips node') :
    List.Forall₂ KeywordCall.Strips (outermost sides node) (outermost sides node') := by
  induction node using Node.induction generalizing node' with
  | step node ih =>
    have hcall := rel_ofNode? sides h
    rw [outermost_eq, outermost_eq]
    generalize KeywordCall.ofNode? sides node = call?, KeywordCall.ofNode? sides node' = call'? at hcall
    cases hcall with
    | some hcall => exact .cons hcall .nil
    | none =>
      have siblings := JavaScript.Node.siblings_children horderly
      apply h.children.flatMap
      · -- A comment that is left out has no parts, so that no call gets lost with it.
        intro comment hcomment haside
        exact outermost_comment sides (siblings.orderly comment hcomment) haside.kind
      · intro child hchild child' hstrips
        exact ih child hchild (siblings.orderly child hchild) hstrips

/-- The keyword calls of a function stay, in their order. -/
theorem forall₂_keywordCalls {function function' : Node} (horderly : function.isOrderly = true)
    (h : function.Strips function') :
    List.Forall₂ KeywordCall.Strips (keywordCalls function) (keywordCalls function') := by
  have hbody : Option.Rel Node.Strips function.body? function'.body? := h.rel_part? .body
  have hinside : ∀ body ∈ function.body?, body.isOrderly = true := fun body hfound ↦
    (JavaScript.Node.occurs_of_part? hfound).isOrderly horderly
  rw [keywordCalls, keywordCalls, bindSides_eq h.functionParameters]
  generalize function.body? = body?, function'.body? = body'? at hbody hinside
  cases hbody with
  | none => exact .nil
  | some hbody => exact forall₂_outermost _ (hinside _ rfl) hbody

/-- The members that a function declares stay, in their order and with their calls. -/
theorem forall₂_declaredMembers {function function' : Node} (horderly : function.isOrderly = true)
    (h : function.Strips function') :
    List.Forall₂ (fun declared declared' ↦ declared.1.Strips declared'.1 ∧ declared.2.Strips declared'.2)
      (declaredMembers function) (declaredMembers function') := by
  apply List.rel_flatMap (forall₂_keywordCalls horderly h)
  intro call call' hcall
  apply List.rel_map (R := Node.Strips) _ hcall.literal.members
  intro member member' hmember
  exact ⟨hcall, hmember⟩

/-! ## Descriptions -/

section Members

variable {call call' : KeywordCall} {member member' : Node} (hcall : call.Strips call')
  (hmember : member.Strips member')

include hcall hmember

theorem aspectOf?_strips : aspectOf? call member = aspectOf? call' member' := by
  simp only [aspectOf?, hcall.name, hcall.side, hmember.memberValue.kind]

theorem isBadFlag_strips : isBadFlag call member = isBadFlag call' member' := by
  simp only [isBadFlag, Node.isBoolean, hcall.name, hmember.memberValue.kind]

theorem flagValue?_strips : flagValue? call member = flagValue? call' member' := by
  simp only [flagValue?, hcall.name, hmember.memberValue.kind]

/-- Comments around a member leave its site where it is. -/
theorem siteOf_strips : siteOf call member = siteOf call' member' := by
  have hstarts : (memberShape? member).map (·.function.start) =
      (memberShape? member').map (·.function.start) :=
    map_eq_of_rel (rel_memberShape? hmember) fun _ _ hshape ↦ hshape.function.start
  simp only [siteOf, entryStart, hstarts, hcall.name, hcall.literal.start, hmember.start, hmember.stop]

/-- A member is described as it is without some comments, if the classes that it may nest are. -/
theorem describeMember_strips {moduleName className : Text}
    (hinner : ∀ shape ∈ memberShape? member, ∀ shape', shape.Strips shape' → ∀ innerName site,
      describe moduleName innerName site shape = describe moduleName innerName site shape') :
    describeMember moduleName className call member =
      describeMember moduleName className call' member' := by
  have hkey := hmember.key
  cases hkey' : member'.key with
  | error fault => rw [describeMember_undecodable hkey', describeMember_undecodable (hkey.trans hkey')]
  | ok key =>
    cases key with
    | computed =>
      rw [describeMember_unnamed (.inl hkey'), describeMember_unnamed (.inl (hkey.trans hkey'))]
    | missing =>
      rw [describeMember_unnamed (.inr hkey'), describeMember_unnamed (.inr (hkey.trans hkey'))]
    | named name =>
      rw [describeMember_named hkey', describeMember_named (hkey.trans hkey'),
        aspectOf?_strips hcall hmember, isBadFlag_strips hcall hmember,
        flagValue?_strips hcall hmember, siteOf_strips hcall hmember]
      cases aspectOf? call' member' with
      | some aspect => rfl
      | none =>
        have hshape := rel_memberShape? hmember
        generalize memberShape? member = shape?, memberShape? member' = shape'? at hshape hinner
        cases hshape with
        | none => rfl
        | some hshape =>
          dsimp only
          rw [hinner _ rfl _ hshape]

end Members

/-- A class is described as it is without some of its comments. -/
theorem describe_strips {moduleName className : Text} {shape shape' : ClassShape} {site : Option Site}
    (horderly : shape.function.isOrderly = true) (h : shape.Strips shape') :
    describe moduleName className site shape = describe moduleName className site shape' := by
  induction hsize : shape.function.size using Nat.strongRecOn
    generalizing className site shape shape' with
  | ind size ih =>
    have hmembers := mapM_eq_of_forall₂ (forall₂_declaredMembers horderly h.function)
      (f := fun declared ↦ describeMember moduleName className declared.1 declared.2)
      (g := fun declared ↦ describeMember moduleName className declared.1 declared.2) ?_
    · simp only [describe_eq, h.superclass, hmembers, ofEntries, h.function.start]
    · rintro ⟨call, member⟩ hdeclared ⟨call', member'⟩ ⟨hcall, hmember⟩
      apply describeMember_strips hcall hmember
      -- A class nested in a member is smaller than the class that declares the member.
      intro inner hinner inner' hinner' innerName innerSite
      have hshape : inner.function.size ≤ member.size := size_memberShape hinner
      have hsmaller := size_declaredMembers hdeclared
      have hoccurs := (occurs_of_memberShape? hinner).trans (occurs_of_mem_declaredMembers hdeclared)
      exact ih inner.function.size (by omega) (hoccurs.isOrderly horderly) hinner' rfl

/-! ## Recognition -/

/-- The statements of a script are a class, or none for the same cause, without some comments. -/
theorem findClass_strips {statements statements' : List Node}
    (h : List.Forall₂ Node.Strips statements statements') :
    (∃ cause, findClass statements = .error cause ∧ findClass statements' = .error cause) ∨
      ∃ shape shape', findClass statements = .ok shape ∧ findClass statements' = .ok shape' ∧
        shape.Strips shape' := by
  cases h with
  | nil => exact .inl ⟨_, rfl, rfl⟩
  | @cons statement statement' _ _ hstatement hrest =>
    cases hrest with
    | cons _ _ => exact .inl ⟨_, rfl, rfl⟩
    | nil =>
      have hshape := rel_statementShape? hstatement
      rw [findClass, findClass]
      generalize statementShape? statement = shape?, statementShape? statement' = shape'? at hshape
      cases hshape with
      | none => exact .inl ⟨_, rfl, rfl⟩
      | some hshape => exact .inr ⟨_, _, rfl, rfl, hshape⟩

/-- A recognizer gives the same answer to the same statements without some of the comments in them. -/
theorem snd_recognize_strips {recognizer : Recognizer} (hrecognizer : InUse recognizer)
    {statements statements' : List Node}
    (horderly : ∀ shape, findClass statements = .ok shape → shape.function.isOrderly = true)
    (h : List.Forall₂ Node.Strips statements statements') :
    (recognizer.recognize statements).2 = (recognizer.recognize statements').2 := by
  obtain ⟨moduleName, className, state⟩ := recognizer
  rcases hrecognizer.state with hfresh | hphase
  · obtain rfl : state = .fresh := hfresh
    rw [snd_recognize_fresh, snd_recognize_fresh]
    rcases findClass_strips h with ⟨cause, hcause, hcause'⟩ | ⟨shape, shape', hshape, hshape', hstrips⟩
    · rw [hcause, hcause']
    · rw [hshape, hshape']
      exact describe_strips (horderly shape hshape) hstrips
  · -- A recognizer that has found its class gets no further than the name of the superclass.
    rcases findClass_strips h with ⟨cause, hcause, hcause'⟩ | ⟨shape, shape', hshape, hshape', hstrips⟩
    · simp only [recognize, hcause, hcause']
    · simp only [recognize, hshape, hshape', hstrips.superclass, State.matchClass_of_ne hphase]

/-- A script without some of its comments, at any depth, has the same statements after its directives,
and every recognizer in use gives the same answer to it. -/
theorem recognize_stripped (script : Script) {root : Node} (h : script.root.Strips root) :
    List.Forall₂ Node.Strips script.statements (script.stripped h).statements ∧
      ∀ recognizer : Recognizer, InUse recognizer →
        (recognizer.recognize script.statements).2 =
          (recognizer.recognize (script.stripped h).statements).2 := by
  have hstatements := script.forall₂_statements h
  refine ⟨hstatements, ?_⟩
  intro recognizer hrecognizer
  exact snd_recognize_strips hrecognizer (fun _ hshape ↦ isOrderly_of_findClass hshape) hstatements

/-- A script with comments at all levels, from the directive down to a nested class. -/
def commentedSource : List Char :=
  "/*1*/ '!' /*2*/;
  (/*3*/ 'B' /*4*/ . subclass(/*5*/ function (/*6*/ I, /*7*/ J) { /*8*/
    I /*9*/ . have(/*10*/ { /*11*/ x: 1 } /*12*/);
    J.nest({ D: (/*13*/ function () {}) });
  } /*14*/));".toList

set_option maxRecDepth 100000 in
theorem recognize_commentedSource :
    ∃ script, Script.read commentedSource = .ok script ∧
      script.root.preorder.countP (·.kind == .comment) = 14 ∧
      ∃ stripped : Script, stripped.root = script.root.uncommented ∧
        stripped.root.preorder.countP (·.kind == .comment) = 0 ∧
        List.Forall₂ Node.Strips script.statements stripped.statements ∧
        ((Recognizer.mk "m" "C" .fresh).recognize script.statements).2 =
          ((Recognizer.mk "m" "C" .fresh).recognize stripped.statements).2 ∧
        ((Recognizer.mk "m" "C" .fresh).recognize stripped.statements).2.toOption.isSome := by
  have hread : (Script.read commentedSource).toOption.map (fun script ↦
      (script.root.preorder.countP (·.kind == .comment),
        script.root.uncommented.preorder.countP (·.kind == .comment),
        ((Recognizer.mk "m" "C" .fresh).recognize script.statements).2.toOption.isSome)) =
      some (14, 0, true) := by
    decide +kernel
  obtain ⟨script, hscript, hcounts⟩ := exists_ok_of_toOption hread
  simp only [Prod.mk.injEq] at hcounts
  obtain ⟨hcomments, hnone, hok⟩ := hcounts
  have hstrips := script.root.strips_uncommented
  have hsame := recognize_stripped script hstrips
  have hanswer := hsame.2 _ (.fresh "m" "C")
  exact ⟨script, hscript, hcomments, script.stripped hstrips, rfl, hnone, hsame.1, hanswer, hanswer ▸ hok⟩

end ClassScript.Recognizer
