import ClassScript.Recognizer
import ClassScript.Proofs.Node
import ClassScript.Proofs.Table
import Mathlib.Data.Option.Basic

/-!
# Classes described by recursion

What a class declares can be said of its tree alone, without an order of visits and without a state. The
keyword calls that count are the outermost ones: a call that lies anywhere inside another keyword call
is none. The members of their literals, one call after the other and from left to right, are the
declared members of the class. Each of them that has a name is filed under an aspect or describes a
nested class, and of several under the same name the last one stands in the place of the first.
-/

namespace ClassScript.Recognizer

open JavaScript (Node)

structure KeywordCall where
  side : Side
  name : Text
  literal : Node

/-- The keyword call that a node is: a method of a name that stands for a side is called with an object
literal as the only argument. -/
def KeywordCall.ofNode? (sides : Sides) (node : Node) : Option KeywordCall := do
  guard (node.kind = .callExpression)
  let callee ← node.part? .callee
  guard (callee.kind = .memberExpression)
  let target ← callee.part? .target
  guard (target.kind = .identifier)
  let side ← Table.get? target.name sides
  let name ← callee.propertyName?
  match node.callArguments with
  | [literal] => if literal.kind = .object then some ⟨side, name, literal⟩ else none
  | _ => none

mutual

/-- The keyword calls of a tree that lie in no other keyword call, in document order. -/
def outermost (sides : Sides) : Node → List KeywordCall
  | .mk kind role span text children =>
    match KeywordCall.ofNode? sides (.mk kind role span text children) with
    | some call => [call]
    | none => outermostAmong sides children

def outermostAmong (sides : Sides) : List Node → List KeywordCall
  | [] => []
  | node :: rest => outermost sides node ++ outermostAmong sides rest

end

def membersOf (calls : List KeywordCall) : List (KeywordCall × Node) :=
  calls.flatMap fun call ↦ call.literal.members.map (call, ·)

/-- The keyword calls of a class, which are looked for in the body of its function. -/
def keywordCalls (function : Node) : List KeywordCall :=
  match function.body? with
  | some body => outermost (bindSides function.functionParameters) body
  | none => []

/-- The members that a class declares, in document order. -/
def declaredMembers (function : Node) : List (KeywordCall × Node) :=
  membersOf (keywordCalls function)

theorem outermostAmong_eq (sides : Sides) (nodes : List Node) :
    outermostAmong sides nodes = nodes.flatMap (outermost sides) := by
  induction nodes with
  | nil => rfl
  | cons node rest ih => rw [outermostAmong, ih, List.flatMap_cons]

/-- A keyword call hides the calls inside of it. -/
theorem outermost_eq (sides : Sides) (node : Node) :
    outermost sides node =
      match KeywordCall.ofNode? sides node with
      | some call => [call]
      | none => node.children.flatMap (outermost sides) := by
  obtain ⟨kind, role, span, text, children⟩ := node
  rw [outermost, outermostAmong_eq]
  rfl

/-- What a keyword call consists of. -/
theorem ofNode?_eq_some {sides : Sides} {node : Node} {call : KeywordCall}
    (h : KeywordCall.ofNode? sides node = some call) :
    node.kind = .callExpression ∧ node.callArguments = [call.literal] ∧
      call.literal.kind = .object := by
  simp only [KeywordCall.ofNode?, Option.bind_eq_bind, Option.bind_eq_some_iff,
    Option.guard_eq_some'] at h
  obtain ⟨_, hkind, callee, _, _, _, target, _, _, _, side, _, name, _, h⟩ := h
  split at h
  · next literal hliteral =>
    split at h
    · next hobject =>
      cases h
      exact ⟨hkind, hliteral, hobject⟩
    · simp at h
  · simp at h

/-- A literal is smaller than its call, so that descriptions of nested classes end. -/
theorem size_literal {sides : Sides} {node : Node} {call : KeywordCall}
    (h : KeywordCall.ofNode? sides node = some call) : call.literal.size < node.size := by
  apply size_callArguments
  rw [(ofNode?_eq_some h).2.1]
  exact List.mem_singleton_self _

theorem size_outermost {sides : Sides} {call : KeywordCall} (node : Node)
    (h : call ∈ outermost sides node) : call.literal.size < node.size := by
  induction node using Node.induction with
  | step node ih =>
    rw [outermost_eq] at h
    split at h
    · next found hfound =>
      rw [List.mem_singleton] at h
      subst h
      exact size_literal hfound
    · obtain ⟨child, hchild, hcall⟩ := List.mem_flatMap.1 h
      exact Nat.lt_trans (ih child hchild hcall) (Node.size_lt_of_mem hchild)

theorem mem_membersOf {calls : List KeywordCall} {call : KeywordCall} {member : Node} :
    (call, member) ∈ membersOf calls ↔ call ∈ calls ∧ member ∈ call.literal.members := by
  simp [membersOf]

theorem size_declaredMembers {function member : Node} {call : KeywordCall}
    (h : (call, member) ∈ declaredMembers function) : member.size < function.size := by
  obtain ⟨hcall, hmember⟩ := mem_membersOf.1 h
  have hsize := Node.size_lt_of_mem (List.mem_filter.1 hmember).1
  unfold keywordCalls at hcall
  split at hcall
  · next body hbody =>
    exact Nat.lt_trans hsize (Nat.lt_trans (size_outermost body hcall) (size_body hbody))
  · simp at hcall

/-- What a named member adds to its class. -/
inductive Entry where
  | declaration (aspect : Aspect) (name : Text) (declared : Declaration)
  | nested (name : Text) (inner : ClassAnalysis)

namespace Entry

def declaration? : Entry → Option (Aspect × Text × Declaration)
  | declaration aspect name declared => some (aspect, name, declared)
  | nested _ _ => none

def nested? : Entry → Option (Text × ClassAnalysis)
  | declaration _ _ _ => none
  | nested name inner => some (name, inner)

end Entry

def innerName (className name : Text) : Text :=
  className ++ ClassAnalysis.nestedSeparator ++ name

def ofEntries (moduleName className superclass : Text) (site : Option Site) (function : Node)
    (entries : List Entry) : ClassAnalysis :=
  .mk
    { moduleName, className, superclass := some superclass, start := some function.start, site
      aspects := Table.grouped (entries.filterMap Entry.declaration?) }
    (Table.latest (entries.filterMap Entry.nested?))

mutual

/-- The analysis of a class, or the first fault in document order. -/
def describe (moduleName className : Text) (site : Option Site) (shape : ClassShape) :
    Except Fault ClassAnalysis := do
  let superclass ← shape.superclass.mapError .escape
  let entries ← (declaredMembers shape.function).attach.mapM fun declared ↦
    describeMember moduleName className declared.1.1 declared.1.2
  return ofEntries moduleName className superclass site shape.function (entries.filterMap id)
termination_by 2 * shape.function.size
decreasing_by
  have : declared.val.2.size < shape.function.size := size_declaredMembers declared.2
  omega

/-- What a member of a keyword call adds to its class; a member without a name of its own adds nothing.
Nested classes are described in the same way, below the name of the class. -/
def describeMember (moduleName className : Text) (call : KeywordCall) (member : Node) :
    Except Fault (Option Entry) := do
  match ← member.key.mapError .escape with
  | .computed => return none
  | .missing => return none
  | .named name =>
    if call.name = Text.ofString "nest" then
      match _h : memberShape? member with
      | none => throw (.failure ⟨.badScript, moduleName, innerName className name⟩)
      | some shape =>
        let site : Site := ⟨call.literal.start, shape.function.start, member.stop⟩
        return some (.nested name (← describe moduleName (innerName className name) (some site) shape))
    else
      let site : Site := ⟨call.literal.start, member.start, member.stop⟩
      if call.name = Text.ofString "am" then
        if member.memberValue.isBoolean then
          return some (.declaration (.fixed .flags) name
            { site, value := some (member.memberValue.kind == .true) })
        else throw (.failure ⟨.badFlag name, moduleName, className⟩)
      else
        return some (.declaration
          (aspectOf call.name call.side (member.memberValue.kind == .null)) name { site })
termination_by 2 * member.size + 1
decreasing_by
  have := size_memberShape _h
  omega

end

/-- A class is described by its superclass and by the entries of all declared members, of which the
first fault wins. -/
theorem describe_eq (moduleName className : Text) (site : Option Site) (shape : ClassShape) :
    describe moduleName className site shape = (do
      let superclass ← shape.superclass.mapError Fault.escape
      let entries ← (declaredMembers shape.function).mapM fun declared ↦
        describeMember moduleName className declared.1 declared.2
      return ofEntries moduleName className superclass site shape.function (entries.filterMap id)) := by
  rw [describe]
  simp only [List.mapM_subtype, List.unattach_attach]

/-! ## Filing members one after the other -/

def Entry.addTo (analysis : ClassAnalysis) : Entry → ClassAnalysis
  | declaration aspect name declared => analysis.declare aspect name declared
  | nested name inner => analysis.nest name inner

def file (analysis : ClassAnalysis) (declared : KeywordCall × Node) :
    Except Fault ClassAnalysis := do
  let entry ← describeMember analysis.facts.moduleName analysis.facts.className declared.1 declared.2
  return entry.elim analysis (Entry.addTo analysis)

theorem moduleName_addTo (analysis : ClassAnalysis) (entry : Entry) :
    (entry.addTo analysis).facts.moduleName = analysis.facts.moduleName := by
  obtain ⟨facts, nested⟩ := analysis
  cases entry <;> rfl

theorem className_addTo (analysis : ClassAnalysis) (entry : Entry) :
    (entry.addTo analysis).facts.className = analysis.facts.className := by
  obtain ⟨facts, nested⟩ := analysis
  cases entry <;> rfl

/-- Filing members adds the entries that they describe. -/
theorem foldlM_file_eq (members : List (KeywordCall × Node)) (analysis : ClassAnalysis) :
    members.foldlM file analysis = (do
      let entries ← members.mapM fun declared ↦
        describeMember analysis.facts.moduleName analysis.facts.className declared.1 declared.2
      return (entries.filterMap id).foldl Entry.addTo analysis) := by
  induction members generalizing analysis with
  | nil => rfl
  | cons declared rest ih =>
    rw [List.foldlM_cons, List.mapM_cons, file]
    cases hentry : describeMember analysis.facts.moduleName analysis.facts.className declared.1
        declared.2 with
    | error fault => rfl
    | ok entry =>
      cases entry with
      | none =>
        show rest.foldlM file analysis = _
        rw [ih]
        simp only [bind_assoc, pure_bind]
        rfl
      | some entry =>
        show rest.foldlM file (entry.addTo analysis) = _
        rw [ih, moduleName_addTo, className_addTo]
        simp only [bind_assoc, pure_bind]
        rfl

/-- Adding entries one by one puts the declarations into buckets and the nested classes into a table. -/
theorem foldl_addTo_eq (entries : List Entry) (facts : ClassFacts)
    (nested : Table Text ClassAnalysis) :
    entries.foldl Entry.addTo (.mk facts nested) =
      .mk
        { facts with
          aspects := (entries.filterMap Entry.declaration?).foldl
            (fun t entry ↦ Table.alter entry.1
              (fun bucket ↦ Table.put entry.2.1 entry.2.2 (bucket.getD [])) t) facts.aspects }
        ((entries.filterMap Entry.nested?).foldl (fun t entry ↦ Table.put entry.1 entry.2 t)
          nested) := by
  induction entries generalizing facts nested with
  | nil => rfl
  | cons entry rest ih =>
    cases entry with
    | declaration aspect name declared => exact ih _ _
    | nested name inner => exact ih _ _

/-- The entries of a class, filed one after the other, make up its analysis. -/
theorem foldl_addTo_opened (moduleName className superclass : Text) (site : Option Site)
    (function : Node) (entries : List Entry) :
    entries.foldl Entry.addTo (opened moduleName className superclass site function) =
      ofEntries moduleName className superclass site function entries := by
  rw [opened, foldl_addTo_eq, ofEntries, Table.foldl_put_eq_latest,
    Table.foldl_alter_put_eq_grouped]

/-- A class is described by filing its declared members. -/
theorem describe_eq_foldlM (moduleName className : Text) (site : Option Site) (shape : ClassShape) :
    describe moduleName className site shape = (do
      let superclass ← shape.superclass.mapError Fault.escape
      (declaredMembers shape.function).foldlM file
        (opened moduleName className superclass site shape.function)) := by
  rw [describe_eq]
  congr 1
  funext superclass
  rw [foldlM_file_eq]
  congr 1
  funext entries
  rw [foldl_addTo_opened]

end ClassScript.Recognizer
