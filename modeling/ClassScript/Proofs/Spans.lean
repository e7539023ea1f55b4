import ClassScript.Proofs.Node
import ClassScript.Proofs.Position
import Mathlib.Order.Basic

/-!
# Spans of orderly trees

In an orderly tree each node lies within its parent, and siblings lie one before the other. Both carry
over from children to all that occurs below them, so that nodes found in different children of a node
never overlap.
-/

namespace ClassScript.JavaScript

def Span.Within (inner outer : Span) : Prop := outer.start ≤ inner.start ∧ inner.stop ≤ outer.stop

def Span.Before (a b : Span) : Prop := a.stop ≤ b.start

namespace Span

theorem Within.refl (span : Span) : span.Within span := ⟨le_refl _, le_refl _⟩

theorem Within.trans {a b c : Span} (hab : a.Within b) (hbc : b.Within c) : a.Within c :=
  ⟨hbc.1.trans hab.1, hab.2.trans hbc.2⟩

theorem Before.mono {a a' b b' : Span} (h : a.Before b) (ha : a'.Within a) (hb : b'.Within b) :
    a'.Before b' :=
  ha.2.trans (h.trans hb.1)

/-- Spans found within spans that lie one before the other do so themselves, if those found within the
same span do. -/
theorem pairwise_flatMap {α β : Type} {outer : α → Span} {inner : β → Span} {found : α → List β}
    {nodes : List α} (hnodes : nodes.Pairwise fun a b ↦ (outer a).Before (outer b))
    (hwithin : ∀ a ∈ nodes, ∀ x ∈ found a, (inner x).Within (outer a))
    (hfound : ∀ a ∈ nodes, (found a).Pairwise fun x y ↦ (inner x).Before (inner y)) :
    (nodes.flatMap found).Pairwise fun x y ↦ (inner x).Before (inner y) := by
  refine List.pairwise_flatMap.2 ⟨hfound, ?_⟩
  apply hnodes.imp_of_mem
  intro a b ha hb hab x hx y hy
  exact hab.mono (hwithin a ha x hx) (hwithin b hb y hy)

end Span

namespace Node

/-- What orderly siblings between two positions satisfy. -/
structure Siblings (start stop : Position) (nodes : List Node) : Prop where
  le : start ≤ stop
  orderly : ∀ node ∈ nodes, node.isOrderly = true
  within : ∀ node ∈ nodes, node.span.Within ⟨start, stop⟩
  before : nodes.Pairwise fun a b ↦ a.span.Before b.span

/-- A node is orderly if it is not empty, if a comment has no children and a bracket comes before them,
and if they are orderly siblings inside of the node. -/
theorem isOrderly_iff (node : Node) :
    node.isOrderly = true ↔
      node.start < node.stop ∧ (node.kind = .comment → node.children = []) ∧
      (isBracketed node.kind = true → ∀ child ∈ node.children, node.start < child.start) ∧
      areOrderly node.start node.stop node.children = true := by
  obtain ⟨kind, role, span, text, children⟩ := node
  rw [isOrderly]
  simp only [Bool.and_eq_true, decide_eq_true_eq, Bool.or_eq_true, bne_iff_ne, ne_eq,
    List.isEmpty_iff, Bool.not_eq_true', List.all_eq_true, and_assoc]
  show span.start < span.stop ∧ (¬ kind = .comment ∨ children = []) ∧
      (isBracketed kind = false ∨ ∀ child ∈ children, span.start < child.start) ∧
      areOrderly span.start span.stop children = true ↔
    span.start < span.stop ∧ (kind = .comment → children = []) ∧
      (isBracketed kind = true → ∀ child ∈ children, span.start < child.start) ∧
      areOrderly span.start span.stop children = true
  cases isBracketed kind with
  | true => simp [imp_iff_not_or]
  | false => simp [imp_iff_not_or]

theorem start_lt_stop {node : Node} (h : node.isOrderly = true) : node.start < node.stop :=
  ((isOrderly_iff node).1 h).1

theorem children_of_comment {node : Node} (h : node.isOrderly = true)
    (hkind : node.kind = .comment) : node.children = [] :=
  ((isOrderly_iff node).1 h).2.1 hkind

theorem start_lt_of_bracketed {node child : Node} (h : node.isOrderly = true)
    (hkind : isBracketed node.kind = true) (hchild : child ∈ node.children) :
    node.start < child.start :=
  ((isOrderly_iff node).1 h).2.2.1 hkind child hchild

theorem siblings_of_areOrderly {start stop : Position} {nodes : List Node}
    (h : areOrderly start stop nodes = true) : Siblings start stop nodes := by
  induction nodes generalizing start with
  | nil =>
    rw [areOrderly, decide_eq_true_eq] at h
    exact ⟨h, by simp, by simp, List.Pairwise.nil⟩
  | cons node rest ih =>
    simp only [areOrderly, Bool.and_eq_true, decide_eq_true_eq] at h
    obtain ⟨⟨hstart, hnode⟩, hrest⟩ := h
    have siblings := ih hrest
    have hlt := start_lt_stop hnode
    constructor
    · exact hstart.trans (hlt.le.trans siblings.le)
    · intro other hother
      rcases List.mem_cons.1 hother with rfl | hmem
      · exact hnode
      · exact siblings.orderly other hmem
    · intro other hother
      rcases List.mem_cons.1 hother with rfl | hmem
      · exact ⟨hstart, siblings.le⟩
      · have hwithin := siblings.within other hmem
        exact ⟨hstart.trans (hlt.le.trans hwithin.1), hwithin.2⟩
    · refine List.pairwise_cons.2 ⟨?_, siblings.before⟩
      intro other hmem
      exact (siblings.within other hmem).1

theorem siblings_children {node : Node} (h : node.isOrderly = true) :
    Siblings node.start node.stop node.children :=
  siblings_of_areOrderly ((isOrderly_iff node).1 h).2.2.2

/-! ## What occurs in a tree -/

/-- A node is in a tree, at its root or below. -/
inductive Occurs : Node → Node → Prop where
  | refl (node : Node) : Occurs node node
  | child {inner child node : Node} (hchild : child ∈ node.children) (h : Occurs inner child) :
    Occurs inner node

namespace Occurs

theorem of_mem {inner node : Node} (h : inner ∈ node.children) : Occurs inner node :=
  child h (refl _)

theorem trans {a b c : Node} (hab : Occurs a b) (hbc : Occurs b c) : Occurs a c := by
  induction hbc with
  | refl => exact hab
  | child hchild _ ih => exact child hchild ih

/-- All that occurs in an orderly tree is orderly. -/
theorem isOrderly {inner node : Node} (h : Occurs inner node) (hnode : node.isOrderly = true) :
    inner.isOrderly = true := by
  induction h with
  | refl => exact hnode
  | child hchild _ ih => exact ih ((siblings_children hnode).orderly _ hchild)

/-- What occurs in an orderly tree lies inside of it. -/
theorem within {inner node : Node} (h : Occurs inner node) (hnode : node.isOrderly = true) :
    inner.span.Within node.span := by
  induction h with
  | refl => exact .refl _
  | child hchild _ ih =>
    have siblings := siblings_children hnode
    exact (ih (siblings.orderly _ hchild)).trans (siblings.within _ hchild)

end Occurs

theorem occurs_of_firstPart? {node part : Node} (h : node.firstPart? = some part) :
    Occurs part node :=
  .of_mem (List.mem_of_find?_eq_some h)

theorem occurs_of_part? {node part : Node} {role : Role} (h : node.part? role = some part) :
    Occurs part node :=
  .of_mem (mem_children_of_part? h)

theorem occurs_of_unwrapped? {node inner : Node} (h : node.unwrapped? = some inner) :
    Occurs inner node := by
  fun_induction unwrapped? node with
  | case1 node _ part hpart ih => exact (ih h).trans (occurs_of_firstPart? hpart)
  | case2 => simp at h
  | case3 node =>
    rw [Option.some.inj h]
    exact .refl _

theorem occurs_of_mem_callArguments {call argument : Node} (h : argument ∈ call.callArguments) :
    Occurs argument call := by
  obtain ⟨args, hargs, _, hargument⟩ := exists_of_mem_callArguments h
  exact .child hargs (.of_mem hargument)

theorem occurs_memberValue (member : Node) : Occurs member.memberValue member := by
  unfold memberValue
  split
  · cases hvalue : member.part? .value with
    | none => exact .refl _
    | some value => exact occurs_of_part? hvalue
  · exact .refl _

end Node

end ClassScript.JavaScript
