import ClassScript.JavaScript.Shape

/-!
# Induction over syntax trees

A node is larger than each of its children, so that what holds of a node whenever it holds of its
children holds of all nodes.
-/

namespace ClassScript.JavaScript.Node

/-- Induction on a tree, with all children at once. -/
@[elab_as_elim]
theorem induction {motive : Node → Prop}
    (step : ∀ node : Node, (∀ child ∈ node.children, motive child) → motive node) (node : Node) :
    motive node := by
  induction hsize : node.size using Nat.strongRecOn generalizing node with
  | ind size ih =>
    apply step
    intro child hchild
    exact ih child.size (hsize ▸ size_lt_of_mem hchild) child rfl

theorem mem_children_of_part? {node part : Node} {role : Role} (h : node.part? role = some part) :
    part ∈ node.children :=
  List.mem_of_find?_eq_some h

/-- The arguments of a call are the children of one of its children. -/
theorem exists_of_mem_callArguments {call argument : Node} (h : argument ∈ call.callArguments) :
    ∃ args ∈ call.children, args.kind = .arguments ∧ argument ∈ args.children := by
  unfold callArguments at h
  split at h
  · next args hargs =>
    split at h
    · next hkind =>
      exact ⟨args, mem_children_of_part? hargs, hkind, (List.mem_filter.1 h).1⟩
    · simp at h
  · simp at h

end ClassScript.JavaScript.Node
