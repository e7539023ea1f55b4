import ClassScript.Proofs.Remarks
import Mathlib.Data.List.Lex

/-!
# The places of a tree in document order

A place in a tree is the way down to it: an index among the children at each level. Places in the order
of lists are in document order, each before those below it. Visiting a tree with a list of what is
pending comes by every place, and by each of them once and in this order.
-/

namespace ClassScript.JavaScript.Node

def at? (node : Node) : List Nat → Option Node
  | [] => some node
  | index :: place => node.children[index]?.bind fun child ↦ child.at? place

mutual

/-- The places of a tree, each before those below it. -/
def places : Node → List (List Nat)
  | mk _ _ _ _ children => [] :: placesFrom 0 children

/-- The places of siblings, the first of which has the given index. -/
def placesFrom (index : Nat) : List Node → List (List Nat)
  | [] => []
  | node :: rest => (places node).map (index :: ·) ++ placesFrom (index + 1) rest

end

theorem placesFrom_eq_flatMap (index : Nat) (nodes : List Node) :
    placesFrom index nodes =
      (nodes.zipIdx index).flatMap fun entry ↦ (places entry.1).map (entry.2 :: ·) := by
  induction nodes generalizing index with
  | nil => rfl
  | cons node rest ih => rw [placesFrom, ih, List.zipIdx_cons, List.flatMap_cons]

theorem places_eq (node : Node) :
    places node =
      [] :: node.children.zipIdx.flatMap fun entry ↦ (places entry.1).map (entry.2 :: ·) := by
  obtain ⟨kind, role, span, text, children⟩ := node
  rw [places, placesFrom_eq_flatMap]
  rfl

theorem cons_mem_places_iff (node : Node) (index : Nat) (place : List Nat) :
    index :: place ∈ places node ↔
      ∃ child, node.children[index]? = some child ∧ place ∈ places child := by
  rw [places_eq, List.mem_cons, List.mem_flatMap]
  constructor
  · rintro (hnil | ⟨⟨child, position⟩, hchild, hmem⟩)
    · cases hnil
    · obtain ⟨below, hbelow, heq⟩ := List.mem_map.1 hmem
      cases heq
      exact ⟨child, List.mem_zipIdx_iff_getElem?.1 hchild, hbelow⟩
  · rintro ⟨child, hchild, hmem⟩
    exact .inr ⟨(child, index), List.mem_zipIdx_iff_getElem?.2 hchild, List.mem_map_of_mem hmem⟩

/-- The places are those at which there is a node. -/
theorem mem_places_iff (node : Node) (place : List Nat) :
    place ∈ places node ↔ (node.at? place).isSome := by
  induction place generalizing node with
  | nil =>
    rw [places_eq]
    exact iff_of_true List.mem_cons_self rfl
  | cons index place ih =>
    rw [cons_mem_places_iff, at?]
    cases node.children[index]? with
    | none => simp
    | some child => simp [ih child]

/-- Places are listed in the order of lists. -/
theorem pairwise_places (node : Node) : (places node).Pairwise (· < ·) := by
  induction node using Node.induction with
  | step node ih =>
    have hindices : node.children.zipIdx.Pairwise fun a b ↦ a.2 < b.2 := by
      apply List.pairwise_map.1
      rw [List.zipIdx_map_snd]
      exact List.pairwise_lt_range'
    rw [places_eq, List.pairwise_cons, List.pairwise_flatMap]
    refine ⟨?_, ?_, hindices.imp ?_⟩
    · intro place hplace
      obtain ⟨entry, _, hmem⟩ := List.mem_flatMap.1 hplace
      obtain ⟨below, _, rfl⟩ := List.mem_map.1 hmem
      exact List.nil_lt_cons _ _
    · intro entry hentry
      rw [List.pairwise_map]
      apply (ih entry.1 (List.fst_mem_of_mem_zipIdx hentry)).imp
      intro a b hab
      exact List.cons_lt_cons_iff.2 (.inr ⟨rfl, hab⟩)
    · intro a b hab place hplace other hother
      obtain ⟨_, _, rfl⟩ := List.mem_map.1 hplace
      obtain ⟨_, _, rfl⟩ := List.mem_map.1 hother
      exact List.cons_lt_cons_iff.2 (.inl hab)

/-- The nodes at the places of a tree are those that the recursion lists. -/
theorem map_at?_places (node : Node) : (places node).map node.at? = (preorder node).map some := by
  induction node using Node.induction with
  | step node ih =>
    have hchild (entry : Node × Nat) (hentry : entry ∈ node.children.zipIdx) :
        ((places entry.1).map (entry.2 :: ·)).map node.at? = (preorder entry.1).map some := by
      rw [← ih entry.1 (List.fst_mem_of_mem_zipIdx hentry), List.map_map]
      apply List.map_congr_left
      intro place _
      have hget : node.children[entry.2]? = some entry.1 := List.mem_zipIdx_iff_getElem?.1 hentry
      simp only [Function.comp, at?, hget, Option.bind_some]
    calc (places node).map node.at?
        = some node :: node.children.zipIdx.flatMap fun entry ↦ (preorder entry.1).map some := by
          rw [places_eq, List.map_cons, List.map_flatMap, at?, List.flatMap_congr hchild]
      _ = some node :: (node.children.zipIdx.map Prod.fst).flatMap
            fun child ↦ (preorder child).map some := by
          rw [List.flatMap_map]
      _ = (preorder node).map some := by
          rw [List.zipIdx_map_fst, preorder_eq, preorders_eq_flatMap, List.map_cons,
            List.map_flatMap]

end ClassScript.JavaScript.Node
