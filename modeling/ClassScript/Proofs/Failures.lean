import ClassScript.Proofs.Faults
import ClassScript.Proofs.Remarks
import ClassScript.Proofs.Sites
import Mathlib.Data.List.Basic
import Mathlib.Data.List.Flatten

/-!
# The first failure of a script

When all names can be decoded, a script fails for having too many statements or no class, or else
because of a member: a flag without a proper value, or a nested class that is none. Such members can
be declared at any depth of nesting. Listed in document order, the first of them decides how the
script fails, and the failure names the class by its path of names from the outermost class.
-/

namespace ClassScript

/-! ## Document order -/

namespace JavaScript.Node

/-- What occurs in a tree is visited there in the same order. -/
theorem Occurs.preorder_sublist {inner node : Node} (h : Occurs inner node) :
    inner.preorder.Sublist node.preorder := by
  induction h with
  | refl => exact List.Sublist.refl _
  | @child child node hchild _ ih =>
    have hbelow : child.preorder.Sublist (preorders node.children) := by
      rw [preorders_eq_flatMap, List.flatMap_def]
      exact List.sublist_flatten_of_mem (List.mem_map_of_mem hchild)
    rw [preorder_eq node]
    exact (ih.trans hbelow).cons node

theorem singleton_sublist_preorder (node : Node) : [node].Sublist node.preorder := by
  rw [preorder_eq]
  exact (List.nil_sublist _).cons_cons node

end JavaScript.Node

namespace Recognizer

open JavaScript (Node)
open JavaScript.Node (preorder preorder_eq preorders_eq_flatMap Occurs occurs_of_part?
  singleton_sublist_preorder)

theorem membersOf_flatMap (nodes : List Node) (calls : Node → List KeywordCall) :
    membersOf (nodes.flatMap calls) = nodes.flatMap fun node ↦ membersOf (calls node) :=
  List.flatMap_assoc

/-- The members of the outermost keyword calls of a tree are visited in their order. -/
theorem preorder_members_sublist (sides : Sides) (node : Node) :
    ((membersOf (outermost sides node)).flatMap fun declared ↦ declared.2.preorder).Sublist
      node.preorder := by
  induction node using Node.induction with
  | step node ih =>
    rw [outermost_eq]
    split
    · next call hcall =>
      have hliteral : Occurs call.literal node := by
        apply JavaScript.Node.occurs_of_mem_callArguments
        rw [(ofNode?_eq_some hcall).2.1]
        exact List.mem_singleton_self _
      have hmembers : (membersOf [call]).flatMap (fun declared ↦ declared.2.preorder) =
          call.literal.members.flatMap preorder := by
        simp [membersOf, List.flatMap_map]
      calc (membersOf [call]).flatMap (fun declared ↦ declared.2.preorder)
          = call.literal.members.flatMap preorder := hmembers
        List.Sublist _ (call.literal.children.flatMap preorder) :=
          List.filter_sublist.flatMap preorder
        List.Sublist _ call.literal.preorder := by
          rw [preorder_eq, preorders_eq_flatMap]
          exact List.sublist_cons_self _ _
        List.Sublist _ node.preorder := hliteral.preorder_sublist
    · rw [membersOf_flatMap, List.flatMap_assoc, preorder_eq, preorders_eq_flatMap]
      apply List.Sublist.cons
      exact List.Sublist.flatMap_right _ ih

/-- The trees of the declared members follow one another in the tree of the function. -/
theorem preorder_declaredMembers_sublist (function : Node) :
    ((declaredMembers function).flatMap fun declared ↦ declared.2.preorder).Sublist
      function.preorder := by
  unfold declaredMembers keywordCalls
  split
  · next body hbody =>
    exact (preorder_members_sublist _ body).trans (occurs_of_part? hbody).preorder_sublist
  · exact List.nil_sublist _

/-! ## Misdeclared members -/

/-- The class found in a class under a path of names, each of which names a nested class of the one
before it. -/
inductive NestedUnder : ClassShape → List Text → ClassShape → Prop where
  | here (shape : ClassShape) : NestedUnder shape [] shape
  | deeper {shape inner found : ClassShape} {call : KeywordCall} {member : Node} {name : Text}
    {names : List Text} (hdeclared : (call, member) ∈ declaredMembers shape.function)
    (hnest : call.name = Text.ofString "nest") (hkey : member.key = .ok (.named name))
    (hinner : memberShape? member = some inner) (h : NestedUnder inner names found) :
    NestedUnder shape (name :: names) found

def qualifiedName (className : Text) (names : List Text) : Text :=
  Text.join ClassAnalysis.nestedSeparator (className :: names)

/-- A member of a class, or of a class nested in it at any depth, that cannot be filed, with the failure
that it gives. -/
inductive Misdeclared (moduleName className : Text) (shape : ClassShape) : Node → Failure → Prop where
  /-- A flag is neither true nor false. -/
  | flag {found : ClassShape} {names : List Text} {call : KeywordCall} {member : Node} {name : Text}
    (hfound : NestedUnder shape names found)
    (hdeclared : (call, member) ∈ declaredMembers found.function)
    (hflag : call.name = Text.ofString "am") (hkey : member.key = .ok (.named name))
    (hvalue : member.memberValue.isBoolean = false) :
    Misdeclared moduleName className shape member
      ⟨.badFlag name, moduleName, qualifiedName className names⟩
  /-- A nested class is no class. -/
  | nested {found : ClassShape} {names : List Text} {call : KeywordCall} {member : Node} {name : Text}
    (hfound : NestedUnder shape names found)
    (hdeclared : (call, member) ∈ declaredMembers found.function)
    (hnest : call.name = Text.ofString "nest") (hkey : member.key = .ok (.named name))
    (hvalue : memberShape? member = none) :
    Misdeclared moduleName className shape member
      ⟨.badScript, moduleName, qualifiedName className (names ++ [name])⟩

mutual

/-- The misdeclared members of a class and of the classes nested in it, in document order. -/
def misdeclared (moduleName className : Text) (shape : ClassShape) : List (Node × Failure) :=
  (declaredMembers shape.function).attach.flatMap fun declared ↦
    misdeclaredIn moduleName className declared.1.1 declared.1.2
termination_by 2 * shape.function.size
decreasing_by
  have : declared.val.2.size < shape.function.size := size_declaredMembers declared.2
  omega

/-- A declared member if it is misdeclared, and the misdeclared members of the class that it is. -/
def misdeclaredIn (moduleName className : Text) (call : KeywordCall) (member : Node) :
    List (Node × Failure) :=
  match member.key with
  | .ok (.named name) =>
    if call.name = Text.ofString "nest" then
      match _h : memberShape? member with
      | none => [(member, ⟨.badScript, moduleName, innerName className name⟩)]
      | some shape => misdeclared moduleName (innerName className name) shape
    else if isBadFlag call member then [(member, ⟨.badFlag name, moduleName, className⟩)]
    else []
  | _ => []
termination_by 2 * member.size + 1
decreasing_by
  have := size_memberShape _h
  omega

end

theorem misdeclared_eq (moduleName className : Text) (shape : ClassShape) :
    misdeclared moduleName className shape =
      (declaredMembers shape.function).flatMap fun declared ↦
        misdeclaredIn moduleName className declared.1 declared.2 := by
  rw [misdeclared]
  simp only [List.flatMap_subtype, List.unattach_attach]

section Members

variable {moduleName className name : Text} {call : KeywordCall} {member : Node}

/-- A member of `nest` is misdeclared if it is no class, and else the members of its class are looked
at. -/
theorem misdeclaredIn_nest (hkey : member.key = .ok (.named name))
    (hnest : call.name = Text.ofString "nest") :
    misdeclaredIn moduleName className call member =
      match memberShape? member with
      | none => [(member, ⟨.badScript, moduleName, innerName className name⟩)]
      | some shape => misdeclared moduleName (innerName className name) shape := by
  rw [misdeclaredIn, hkey]
  simp only [hnest, if_true]
  cases memberShape? member with
  | none => rfl
  | some shape => rfl

/-- A member of another keyword is misdeclared if its flag is bad. -/
theorem misdeclaredIn_plain (hkey : member.key = .ok (.named name))
    (hnest : call.name ≠ Text.ofString "nest") :
    misdeclaredIn moduleName className call member =
      if isBadFlag call member then [(member, ⟨.badFlag name, moduleName, className⟩)] else [] := by
  rw [misdeclaredIn, hkey]
  exact if_neg hnest

theorem misdeclaredIn_unnamed (hkey : ∀ name, member.key ≠ .ok (.named name)) :
    misdeclaredIn moduleName className call member = [] := by
  rw [misdeclaredIn]
  split
  · next name hname => exact absurd hname (hkey name)
  · rfl

/-- What is misdeclared in a declared member: the member itself, as a flag or as a nested class, or a
member of the class that it is. -/
theorem mem_misdeclaredIn {bad : Node × Failure} :
    bad ∈ misdeclaredIn moduleName className call member ↔
      ∃ name, member.key = .ok (.named name) ∧
        (call.name = Text.ofString "am" ∧ member.memberValue.isBoolean = false ∧
            bad = (member, ⟨.badFlag name, moduleName, className⟩) ∨
          call.name = Text.ofString "nest" ∧
            (memberShape? member = none ∧
                bad = (member, ⟨.badScript, moduleName, innerName className name⟩) ∨
              ∃ shape, memberShape? member = some shape ∧
                bad ∈ misdeclared moduleName (innerName className name) shape)) := by
  have hne : Text.ofString "nest" ≠ Text.ofString "am" := by decide
  by_cases hnamed : ∃ name, member.key = .ok (.named name)
  · obtain ⟨name, hkey⟩ := hnamed
    by_cases hnest : call.name = Text.ofString "nest"
    · rw [misdeclaredIn_nest hkey hnest]
      cases memberShape? member with
      | none => simp [hkey, hnest, hne]
      | some shape => simp [hkey, hnest, hne]
    · rw [misdeclaredIn_plain hkey hnest, isBadFlag]
      by_cases ham : call.name = Text.ofString "am"
      · cases member.memberValue.isBoolean with
        | true => simp [ham, hne.symm]
        | false => simp [hkey, ham, hne.symm]
      · simp [hnest, ham]
  · rw [misdeclaredIn_unnamed (not_exists.1 hnamed)]
    constructor
    · intro hbad
      cases hbad
    · rintro ⟨name, hkey, _⟩
      exact absurd ⟨name, hkey⟩ hnamed

end Members

theorem qualifiedName_cons (className name : Text) (names : List Text) :
    qualifiedName className (name :: names) = qualifiedName (innerName className name) names := by
  cases names with
  | nil => rfl
  | cons next rest => simp [qualifiedName, innerName, Text.join]

theorem qualifiedName_concat (className name : Text) (names : List Text) :
    qualifiedName className (names ++ [name]) = innerName (qualifiedName className names) name := by
  induction names generalizing className with
  | nil => rfl
  | cons next rest ih => rw [List.cons_append, qualifiedName_cons, ih, qualifiedName_cons]

section Classes

variable {moduleName className : Text} {shape : ClassShape}

theorem mem_misdeclared {bad : Node × Failure} :
    bad ∈ misdeclared moduleName className shape ↔
      ∃ call member, (call, member) ∈ declaredMembers shape.function ∧
        bad ∈ misdeclaredIn moduleName className call member := by
  rw [misdeclared_eq, List.mem_flatMap, Prod.exists]

/-- What is misdeclared in a nested class is misdeclared in the class around it. -/
theorem mem_misdeclared_of_nestedUnder {found : ClassShape} {names : List Text}
    (hfound : NestedUnder shape names found) {bad : Node × Failure}
    (h : bad ∈ misdeclared moduleName (qualifiedName className names) found) :
    bad ∈ misdeclared moduleName className shape := by
  induction hfound generalizing className with
  | here shape => exact h
  | @deeper shape inner found call member name names hdeclared hnest hkey hinner _ ih =>
    rw [qualifiedName_cons] at h
    rw [mem_misdeclared]
    exact ⟨call, member, hdeclared,
      mem_misdeclaredIn.2 ⟨name, hkey, .inr ⟨hnest, .inr ⟨inner, hinner, ih h⟩⟩⟩⟩

/-- What is misdeclared in a nested class is misdeclared in the class around it, under a longer name. -/
theorem Misdeclared.of_nested {inner : ClassShape} {call : KeywordCall} {member bad : Node}
    {name : Text} {failure : Failure} (hdeclared : (call, member) ∈ declaredMembers shape.function)
    (hnest : call.name = Text.ofString "nest") (hkey : member.key = .ok (.named name))
    (hinner : memberShape? member = some inner)
    (h : Misdeclared moduleName (innerName className name) inner bad failure) :
    Misdeclared moduleName className shape bad failure := by
  cases h with
  | flag hfound hbad hflag hname hvalue =>
    rw [← qualifiedName_cons]
    exact .flag (.deeper hdeclared hnest hkey hinner hfound) hbad hflag hname hvalue
  | nested hfound hbad hnested hname hvalue =>
    rw [← qualifiedName_cons, ← List.cons_append]
    exact .nested (.deeper hdeclared hnest hkey hinner hfound) hbad hnested hname hvalue

/-- The list has all misdeclared members and no others. -/
theorem mem_misdeclared_iff {bad : Node} {failure : Failure} :
    (bad, failure) ∈ misdeclared moduleName className shape ↔
      Misdeclared moduleName className shape bad failure := by
  constructor
  · intro h
    induction hsize : shape.function.size using Nat.strongRecOn generalizing className shape with
    | ind size ih =>
      obtain ⟨call, member, hdeclared, hbad⟩ := mem_misdeclared.1 h
      obtain ⟨name, hkey, ⟨hflag, hvalue, heq⟩ | ⟨hnest, ⟨hvalue, heq⟩ | ⟨inner, hinner, hbad⟩⟩⟩ :=
        mem_misdeclaredIn.1 hbad
      · cases heq
        exact .flag (.here shape) hdeclared hflag hkey hvalue
      · cases heq
        exact .nested (.here shape) hdeclared hnest hkey hvalue
      · have hmember := size_declaredMembers hdeclared
        have hshape := size_memberShape hinner
        exact .of_nested hdeclared hnest hkey hinner (ih inner.function.size (by omega) hbad rfl)
  · intro h
    cases h with
    | flag hfound hdeclared hflag hkey hvalue =>
      apply mem_misdeclared_of_nestedUnder hfound
      rw [mem_misdeclared]
      exact ⟨_, _, hdeclared, mem_misdeclaredIn.2 ⟨_, hkey, .inl ⟨hflag, hvalue, rfl⟩⟩⟩
    | nested hfound hdeclared hnest hkey hvalue =>
      apply mem_misdeclared_of_nestedUnder hfound
      rw [mem_misdeclared, qualifiedName_concat]
      exact ⟨_, _, hdeclared, mem_misdeclaredIn.2 ⟨_, hkey, .inr ⟨hnest, .inl ⟨hvalue, rfl⟩⟩⟩⟩

/-- The list is in document order. -/
theorem misdeclared_sublist :
    ((misdeclared moduleName className shape).map Prod.fst).Sublist shape.function.preorder := by
  induction hsize : shape.function.size using Nat.strongRecOn generalizing className shape with
  | ind size ih =>
    rw [misdeclared_eq, List.map_flatMap]
    refine List.Sublist.trans (List.Sublist.flatMap_right _ ?_)
      (preorder_declaredMembers_sublist shape.function)
    intro declared hdeclared
    by_cases hnamed : ∃ name, declared.2.key = .ok (.named name)
    · obtain ⟨name, hkey⟩ := hnamed
      by_cases hnest : declared.1.name = Text.ofString "nest"
      · rw [misdeclaredIn_nest hkey hnest]
        cases hinner : memberShape? declared.2 with
        | none => exact singleton_sublist_preorder declared.2
        | some inner =>
          have hmember := size_declaredMembers hdeclared
          have hshape := size_memberShape hinner
          exact (ih inner.function.size (by omega) rfl).trans
            (occurs_of_memberShape? hinner).preorder_sublist
      · rw [misdeclaredIn_plain hkey hnest]
        split
        · exact singleton_sublist_preorder declared.2
        · exact List.nil_sublist _
    · rw [misdeclaredIn_unnamed (not_exists.1 hnamed)]
      exact List.nil_sublist _

end Classes

/-! ## What fails first -/

theorem elim_literalFaults_eq_nil {literal? : Option Node}
    (h : ∀ literal, literal? = some literal → ¬literal.HasStrayEscape) :
    literal?.elim [] Node.literalFaults = [] := by
  apply List.eq_nil_iff_forall_not_mem.2
  intro fault hfault
  obtain ⟨literal, hliteral, hmem⟩ := exists_of_mem_elim hfault
  exact h literal hliteral (Node.hasStrayEscape_of_mem hmem)

/-- Without stray names the faults of a member are its misdeclared members, in their order. -/
theorem memberFaults_eq_map {moduleName className : Text} {call : KeywordCall} {member : Node}
    (hkeys : keyFaults member = [])
    (hinner : ∀ shape name, call.name = Text.ofString "nest" → memberShape? member = some shape →
      faults moduleName (innerName className name) shape =
        (misdeclared moduleName (innerName className name) shape).map fun bad ↦ .failure bad.2) :
    memberFaults moduleName className call member =
      (misdeclaredIn moduleName className call member).map fun bad ↦ .failure bad.2 := by
  cases hkey : member.key with
  | error fault =>
    rw [key_eq_error_iff, hkeys] at hkey
    cases hkey
  | ok key =>
    cases key with
    | computed =>
      rw [memberFaults_unnamed (.inl hkey), misdeclaredIn_unnamed (by simp [hkey])]
      rfl
    | missing =>
      rw [memberFaults_unnamed (.inr hkey), misdeclaredIn_unnamed (by simp [hkey])]
      rfl
    | named name =>
      rw [memberFaults_named hkey]
      cases haspect : aspectOf? call member with
      | some aspect =>
        have hnest : call.name ≠ Text.ofString "nest" := by
          intro hnest
          rw [aspectOf?, if_pos hnest] at haspect
          cases haspect
        rw [misdeclaredIn_plain hkey hnest]
        cases isBadFlag call member with
        | true => rfl
        | false => rfl
      | none =>
        have hnest := nest_of_aspectOf? haspect
        rw [misdeclaredIn_nest hkey hnest]
        cases hshape : memberShape? member with
        | none => rfl
        | some shape => exact hinner shape name hnest hshape

/-- Where all names can be decoded, what is wrong with a class are its misdeclared members. -/
theorem faults_eq_map {moduleName className : Text} {shape : ClassShape}
    (hnames : ∀ literal, Names shape literal → ¬literal.HasStrayEscape) :
    faults moduleName className shape =
      (misdeclared moduleName className shape).map fun bad ↦ .failure bad.2 := by
  induction hsize : shape.function.size using Nat.strongRecOn generalizing className shape with
  | ind size ih =>
    have hsuper : superclassFaults shape = [] :=
      elim_literalFaults_eq_nil fun literal hbase ↦ hnames literal (.superclass hbase)
    rw [faults_eq, misdeclared_eq, hsuper, List.map_nil, List.nil_append, List.map_flatMap]
    apply List.flatMap_congr
    intro declared hdeclared
    apply memberFaults_eq_map
    · exact elim_literalFaults_eq_nil fun literal hkey ↦ hnames literal (.key hdeclared hkey)
    · intro inner name hnest hinner
      have hmember := size_declaredMembers hdeclared
      have hshape := size_memberShape hinner
      exact ih inner.function.size (by omega)
        (fun literal hliteral ↦ hnames literal (.nested hdeclared hnest hinner hliteral)) rfl

/-- The failure with which the statements of a script are refused. -/
inductive Refused (moduleName className : Text) : List Node → Failure → Prop where
  | tooMany (first second : Node) (rest : List Node) :
    Refused moduleName className (first :: second :: rest) ⟨.tooManyStatements, moduleName, className⟩
  | empty : Refused moduleName className [] ⟨.badScript, moduleName, className⟩
  | noClass {statement : Node} (h : statementShape? statement = none) :
    Refused moduleName className [statement] ⟨.badScript, moduleName, className⟩
  /-- The first misdeclared member decides. -/
  | member {statement member : Node} {shape : ClassShape} {failure : Failure}
    (hshape : statementShape? statement = some shape)
    (hfirst : (misdeclared moduleName className shape).head? = some (member, failure)) :
    Refused moduleName className [statement] failure

section Refused

variable {moduleName className : Text} {statements : List Node} {shape : ClassShape} {failure : Failure}

theorem refused_iff_of_error {cause : FailureCause} (h : findClass statements = .error cause) :
    Refused moduleName className statements failure ↔ failure = ⟨cause, moduleName, className⟩ := by
  unfold findClass at h
  split at h
  · cases h
    constructor
    · rintro ⟨⟩
      rfl
    · rintro rfl
      exact .empty
  · split at h
    · cases h
    · next hnone =>
      cases h
      constructor
      · rintro (_ | _ | _ | ⟨hshape, _⟩)
        · rfl
        · rw [hnone] at hshape
          cases hshape
      · rintro rfl
        exact .noClass hnone
  · cases h
    constructor
    · rintro ⟨⟩
      rfl
    · rintro rfl
      exact .tooMany _ _ _

/-- A script with a class is refused for the first member that is misdeclared. -/
theorem refused_iff_of_ok (h : findClass statements = .ok shape) :
    Refused moduleName className statements failure ↔
      (misdeclared moduleName className shape).head?.map Prod.snd = some failure := by
  obtain ⟨statement, rfl, hshape⟩ := exists_of_findClass h
  rw [Option.map_eq_some_iff]
  constructor
  · rintro (_ | _ | hnone | ⟨hfound, hfirst⟩)
    · rw [hshape] at hnone
      cases hnone
    · rw [hshape] at hfound
      cases hfound
      exact ⟨_, hfirst, rfl⟩
  · rintro ⟨⟨member, failure⟩, hfirst, rfl⟩
    exact .member hshape hfirst

end Refused

/-- If all names of a script can be decoded, a fresh recognizer fails just when the script is refused,
and with that failure. The misdeclared members, the first of which may decide this, are listed in
document order and completely. -/
theorem recognize_eq_error_iff_refused (moduleName className : Text) {statements : List Node}
    (hnames : ∀ shape, findClass statements = .ok shape →
      ∀ literal, Names shape literal → ¬literal.HasStrayEscape) :
    (∀ fault, ((Recognizer.mk moduleName className .fresh).recognize statements).2 = .error fault ↔
        ∃ failure, fault = .failure failure ∧ Refused moduleName className statements failure) ∧
      ∀ statement ∈ statements, ∀ shape, statementShape? statement = some shape →
        ((misdeclared moduleName className shape).map Prod.fst).Sublist statement.preorder ∧
          ∀ member failure, (member, failure) ∈ misdeclared moduleName className shape ↔
            Misdeclared moduleName className shape member failure := by
  constructor
  · intro fault
    rw [snd_recognize_fresh]
    cases hfound : findClass statements with
    | error cause =>
      simp only [refused_iff_of_error hfound]
      constructor
      · rintro ⟨⟩
        exact ⟨_, rfl, rfl⟩
      · rintro ⟨_, rfl, rfl⟩
        rfl
    | ok shape =>
      show describe moduleName className none shape = .error fault ↔ _
      simp only [refused_iff_of_ok hfound]
      rw [describe_eq_error_iff, faults_eq_map (hnames shape hfound), List.head?_map]
      cases (misdeclared moduleName className shape).head? with
      | none => simp
      | some bad => simp [eq_comm]
  · intro statement _ shape hshape
    exact ⟨misdeclared_sublist.trans (occurs_of_statementShape? hshape).preorder_sublist,
      fun member failure ↦ mem_misdeclared_iff⟩

/-! ## Where names stand -/

theorem occurs_base_of_classShape? {expression base : Node} {shape : ClassShape}
    (h : classShape? expression = some shape) (hbase : shape.base = some base) :
    Occurs base expression := by
  unfold classShape? at h
  split at h
  · cases h
    cases hbase
  · split at h
    · split at h
      · next callee _ hcallee _ =>
        split at h
        · next target htarget =>
          split at h
          · cases h
            cases hbase
            exact (occurs_of_part? htarget).trans (occurs_of_part? hcallee)
          · cases h
        · cases h
      · cases h
    · cases h

/-- A name in a class stands in its function, if it is not that of the superclass. -/
theorem occurs_of_names {shape : ClassShape} {literal : Node} (h : Names shape literal) :
    shape.base = some literal ∨ Occurs literal shape.function := by
  induction h with
  | superclass hbase => exact .inl hbase
  | key hdeclared hkey =>
    right
    unfold keyLiteral? at hkey
    split at hkey
    · cases hkey
    · obtain ⟨hpart, _⟩ := Option.filter_eq_some_iff.1 hkey
      exact (occurs_of_part? hpart).trans (occurs_of_mem_declaredMembers hdeclared)
  | nested hdeclared _ hinner _ ih =>
    right
    apply Occurs.trans _ (occurs_of_mem_declaredMembers hdeclared)
    rcases ih with hbase | hoccurs
    · obtain ⟨value, hvalue, hshape⟩ := Option.bind_eq_some_iff.1 hinner
      exact (occurs_base_of_classShape? hshape hbase).trans
        ((JavaScript.Node.occurs_of_unwrapped? hvalue).trans (JavaScript.Node.occurs_memberValue _))
    · exact hoccurs.trans (occurs_of_memberShape? hinner)

theorem literalFaults_ne_nil {literal : Node} (h : literal.HasStrayEscape) :
    literal.literalFaults ≠ [] := by
  obtain ⟨piece, hpiece, token, hkind, n, hn, hlarge⟩ := h
  have hfault : piece.escape?.bind JavaScript.Lexeme.EscapeToken.fault? =
      some (if n ≤ 0x7FFFFFFF then .outOfRange else .tooLarge) := by
    rw [Node.escape?, hkind]
    simp only [Option.bind_some, JavaScript.Lexeme.EscapeToken.fault?, hn,
      if_neg (Nat.not_le.2 hlarge)]
  exact List.ne_nil_of_mem (List.mem_filterMap.2 ⟨piece, hpiece, hfault⟩)

/-- A class with two misdeclared members, both of which are declared once more after that. -/
def misdeclaringClass : Node :=
  let source := "(function (I) {
    I.nest({ D: function (J) { J.am({ x: 1, x: true }); }, E: 3, E: function () {} });
  })"
  ((JavaScript.Script.read source.toList).toOption.bind fun script ↦ script.statements.head?).getD
    default

set_option maxRecDepth 100000 in
/-- The first of the two is in a nested class, and the failure names that class. -/
theorem recognize_misdeclaringClass :
    ((Recognizer.mk "m" "C" .fresh).recognize [misdeclaringClass]).2 =
      .error (.failure ⟨.badFlag "x", "m", "C._.D"⟩) := by
  have hclass : (statementShape? misdeclaringClass).map (fun shape ↦
      (shape.base.isSome, shape.function.preorder.all fun node ↦ node.literalFaults.isEmpty,
        (misdeclared "m" "C" shape).map Prod.snd)) =
      some (false, true, [⟨.badFlag "x", "m", "C._.D"⟩, ⟨.badScript, "m", "C._.E"⟩]) := by
    decide +kernel
  obtain ⟨shape, hshape, hfacts⟩ := Option.map_eq_some_iff.1 hclass
  simp only [Prod.mk.injEq] at hfacts
  obtain ⟨hbase, hliterals, hbad⟩ := hfacts
  have hnames : ∀ found, findClass [misdeclaringClass] = .ok found →
      ∀ literal, Names found literal → ¬literal.HasStrayEscape := by
    intro found hfound literal hliteral hstray
    obtain ⟨_, heq, hfound⟩ := exists_of_findClass hfound
    cases heq
    rw [hshape] at hfound
    cases hfound
    rcases occurs_of_names hliteral with hsuper | hoccurs
    · rw [hsuper] at hbase
      cases hbase
    · have hmem : literal ∈ shape.function.preorder :=
        hoccurs.preorder_sublist.mem (singleton_sublist_preorder literal |>.mem List.mem_cons_self)
      have hempty := List.all_eq_true.1 hliterals literal hmem
      exact literalFaults_ne_nil hstray (List.isEmpty_iff.1 hempty)
  obtain ⟨bad, later, hlist, hfirst, _⟩ := List.map_eq_cons_iff.1 hbad
  have hrefused : Refused "m" "C" [misdeclaringClass] bad.2 :=
    .member hshape (by rw [hlist]; rfl)
  rw [hfirst] at hrefused
  exact ((recognize_eq_error_iff_refused "m" "C" hnames).1 _).2 ⟨_, rfl, hrefused⟩

end Recognizer

end ClassScript
