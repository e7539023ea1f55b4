import ClassScript.Remark
import ClassScript.Proofs.Spans

/-!
# Remarks in the order of the source

Comments have no parts, so that in a nested tree, visited in document order, each comment ends before
the next one starts. Orderly trees are nested. So the remarks of a script are found in strictly
increasing positions.
-/

namespace ClassScript

open JavaScript (Node Script Comment Span)

/-- Comments are not empty, and each ends before the next one starts. -/
structure JavaScript.Comment.Apart (comments : List Comment) : Prop where
  nonempty : ∀ comment ∈ comments, comment.span.start < comment.span.stop
  before : comments.Pairwise fun a b ↦ a.span.Before b.span

/-- Comments that lie apart come in strictly increasing positions. -/
theorem JavaScript.Comment.Apart.pairwise_start {comments : List Comment} (h : Apart comments) :
    comments.Pairwise fun a b ↦ a.span.start < b.span.start := by
  apply h.before.imp_of_mem
  intro a b ha _ hab
  exact (h.nonempty a ha).trans_le hab

namespace JavaScript.Node

theorem preorders_append (a b : List Node) : preorders (a ++ b) = preorders a ++ preorders b := by
  induction a with
  | nil => rfl
  | cons node rest ih => rw [List.cons_append, preorders, preorders, ih, List.append_assoc]

theorem preorders_eq_flatMap (nodes : List Node) : preorders nodes = nodes.flatMap preorder := by
  induction nodes with
  | nil => rfl
  | cons node rest ih => rw [preorders, ih, List.flatMap_cons]

theorem preorder_eq (node : Node) : preorder node = node :: preorders node.children := by
  obtain ⟨kind, role, span, text, children⟩ := node
  rw [preorder]
  rfl

/-- Visiting with a list of what is pending goes through the trees in document order. -/
theorem walk_eq_preorders (pending : List Node) : walk pending = preorders pending := by
  fun_induction walk pending with
  | case1 => rfl
  | case2 node rest ih => rw [ih, preorders_append, preorders, preorder_eq, List.cons_append]

/-- The walk with a list of nodes visits a tree in preorder. -/
theorem walk_eq_preorder (node : Node) : walk [node] = preorder node := by
  rw [walk_eq_preorders, preorders_eq_flatMap, List.flatMap_singleton]

def commentsOf (node : Node) : List Node := (preorder node).filter (·.kind == .comment)

theorem commentsOf_eq (node : Node) :
    commentsOf node =
      (if node.kind = .comment then [node] else []) ++ node.children.flatMap commentsOf := by
  have hbelow : (preorders node.children).filter (·.kind == .comment) =
      node.children.flatMap commentsOf := by
    rw [preorders_eq_flatMap, List.filter_flatMap]
    rfl
  rw [commentsOf, preorder_eq, List.filter_cons, hbelow]
  by_cases hkind : node.kind = .comment
  · simp [hkind]
  · simp [hkind]

theorem mem_commentsOf {node comment : Node} :
    comment ∈ commentsOf node ↔
      node.kind = .comment ∧ comment = node ∨ ∃ child ∈ node.children, comment ∈ commentsOf child := by
  rw [commentsOf_eq, List.mem_append, List.mem_ite_nil_right, List.mem_singleton, List.mem_flatMap]

/-- The comments that the walk meets are those of the tree, in document order. -/
theorem filter_walk (node : Node) : (walk [node]).filter (·.kind == .comment) = commentsOf node := by
  rw [walk_eq_preorder, commentsOf]

/-! ## Nested trees -/

/-- Children lie one after the other within their parent, and a comment is not empty and has no
parts. -/
inductive Nested : Node → Prop where
  | intro {node : Node}
    (comment : node.kind = .comment → node.start < node.stop ∧ node.children = [])
    (within : ∀ child ∈ node.children, child.span.Within node.span)
    (before : node.children.Pairwise fun a b ↦ a.span.Before b.span)
    (nested : ∀ child ∈ node.children, Nested child) : Nested node

theorem nested_of_isOrderly (node : Node) (h : node.isOrderly = true) : Nested node := by
  induction node using Node.induction with
  | step node ih =>
    have siblings := siblings_children h
    refine .intro ?_ siblings.within siblings.before ?_
    · exact fun hkind ↦ ⟨start_lt_stop h, children_of_comment h hkind⟩
    · exact fun child hchild ↦ ih child hchild (siblings.orderly child hchild)

namespace Nested

/-- A comment lies inside every node around it. -/
theorem within_of_mem_commentsOf {node comment : Node} (h : Nested node)
    (hcomment : comment ∈ commentsOf node) : comment.span.Within node.span := by
  induction h with
  | @intro node hkind hwithin hbefore hnested ih =>
    rcases mem_commentsOf.1 hcomment with ⟨-, rfl⟩ | ⟨child, hchild, hmem⟩
    · exact .refl _
    · exact (ih child hchild hmem).trans (hwithin child hchild)

theorem start_lt_stop_of_mem_commentsOf {node comment : Node} (h : Nested node)
    (hcomment : comment ∈ commentsOf node) : comment.start < comment.stop := by
  induction h with
  | @intro node hkind hwithin hbefore hnested ih =>
    rcases mem_commentsOf.1 hcomment with ⟨hnode, rfl⟩ | ⟨child, hchild, hmem⟩
    · exact (hkind hnode).1
    · exact ih child hchild hmem

/-- Each comment ends before the next one starts. -/
theorem pairwise_commentsOf {node : Node} (h : Nested node) :
    (commentsOf node).Pairwise fun a b ↦ a.span.Before b.span := by
  induction h with
  | @intro node hkind hwithin hbefore hnested ih =>
    rw [commentsOf_eq]
    split
    · next hnode =>
      rw [(hkind hnode).2]
      exact List.pairwise_singleton _ _
    · rw [List.nil_append]
      apply Span.pairwise_flatMap hbefore
      · exact fun child hchild comment hmem ↦ within_of_mem_commentsOf (hnested child hchild) hmem
      · exact ih

/-- The comments of a nested tree lie apart. -/
theorem apart {node : Node} (h : Nested node) :
    Comment.Apart ((commentsOf node).map Comment.ofNode) := by
  constructor
  · intro comment hcomment
    obtain ⟨inner, hinner, rfl⟩ := List.mem_map.1 hcomment
    exact h.start_lt_stop_of_mem_commentsOf hinner
  · exact List.pairwise_map.2 h.pairwise_commentsOf

end Nested

end JavaScript.Node

namespace JavaScript.Script

theorem kind_root_of_read {source : List Char} {script : Script}
    (h : Script.read source = .ok script) : script.root.kind = .program := by
  unfold read at h
  dsimp only at h
  split at h
  · simp at h
  · split at h
    · rw [← Except.ok.inj h]
      rfl
    · simp at h

theorem comments_eq (script : Script) :
    script.comments = (Node.commentsOf script.root).map Comment.ofNode := by
  rw [comments, Node.filter_walk]

/-- The tree of a script is nested. -/
theorem nested_of_read {source : List Char} {script : Script}
    (h : Script.read source = .ok script) : Node.Nested script.root := by
  have siblings := Node.siblings_of_areOrderly script.orderly
  refine .intro ?_ siblings.within siblings.before ?_
  · intro hkind
    rw [kind_root_of_read h] at hkind
    cases hkind
  · exact fun child hchild ↦ Node.nested_of_isOrderly child (siblings.orderly child hchild)

/-- The comments of a script do not overlap. -/
theorem apart_of_read {source : List Char} {script : Script}
    (h : Script.read source = .ok script) : Comment.Apart script.comments := by
  rw [comments_eq]
  exact (nested_of_read h).apart

end JavaScript.Script

namespace Remark

/-- Remarks come in strictly increasing positions. -/
theorem pairwise_collect (marker : Text) {source : List Char} {script : Script}
    (h : Script.read source = .ok script) :
    (collect marker script).Pairwise (·.start < ·.start) := by
  rw [collect, List.pairwise_map]
  exact (Script.apart_of_read h).pairwise_start.filter _

end Remark

end ClassScript
