import ClassScript.Proofs.Points
import ClassScript.Proofs.Remarks

/-!
# Trees over an encoded source

A tree lies in a source when its spans are converted from points of the encoded source and these points
are nested and in order. Points are converted in the order of the source, across all its lines, so that
the positions of such a tree are nested and in order as well.
-/

namespace ClassScript.JavaScript

/-- The span between two offsets of a source, converted from their points in the encoded source. -/
def Span.ofOffsets (source : List Char) (start stop : Nat) : Span :=
  ⟨(Point.ofOffset source start).position (Point.lines source),
    (Point.ofOffset source stop).position (Point.lines source)⟩

namespace Span

theorem ofOffsets_eq (source : List Char) (start stop : Nat) :
    ofOffsets source start stop =
      ⟨Position.ofOffset source start, Position.ofOffset source stop⟩ := by
  rw [ofOffsets, (Point.converts source start).walked, (Point.converts source stop).walked]

/-- Positions grow with offsets. -/
theorem start_lt_stop_ofOffsets {source : List Char} {start stop : Nat} (h : start < stop)
    (hstop : stop ≤ source.length) :
    (ofOffsets source start stop).start < (ofOffsets source start stop).stop := by
  rw [ofOffsets_eq]
  exact Position.ofOffset_lt h hstop

theorem start_le_stop_ofOffsets {source : List Char} {start stop : Nat} (h : start ≤ stop)
    (hstop : stop ≤ source.length) :
    (ofOffsets source start stop).start ≤ (ofOffsets source start stop).stop := by
  rcases h.lt_or_eq with hlt | rfl
  · exact (start_lt_stop_ofOffsets hlt hstop).le
  · exact le_refl _

theorem within_ofOffsets {source : List Char} {start a b stop : Nat} (ha : start ≤ a) (hab : a ≤ b)
    (hb : b ≤ stop) (hstop : stop ≤ source.length) :
    (ofOffsets source a b).Within (ofOffsets source start stop) :=
  ⟨start_le_stop_ofOffsets ha (hab.trans (hb.trans hstop)), start_le_stop_ofOffsets hb hstop⟩

end Span

namespace Node

mutual

/-- A tree lies between two offsets of a source. A comment is not empty and has no parts. -/
def Lies (source : List Char) (start stop : Nat) : Node → Prop
  | mk kind _ span _ children =>
    span = .ofOffsets source start stop ∧ start ≤ stop ∧
      (kind = .comment → start < stop ∧ children = []) ∧ LieBetween source start stop children

def LieBetween (source : List Char) (start stop : Nat) : List Node → Prop
  | [] => start ≤ stop
  | node :: rest => ∃ a b, start ≤ a ∧ Lies source a b node ∧ LieBetween source b stop rest

end

/-- A node lies at offsets if its span says so and its children lie between them, one behind the
other. -/
theorem lies_iff {source : List Char} {start stop : Nat} {node : Node} :
    Lies source start stop node ↔
      node.span = .ofOffsets source start stop ∧ start ≤ stop ∧
        (node.kind = .comment → start < stop ∧ node.children = []) ∧
        LieBetween source start stop node.children := by
  obtain ⟨kind, role, span, text, children⟩ := node
  rw [Lies]
  rfl

section Offsets

variable {source : List Char} {start stop : Nat}

theorem Lies.span_eq {node : Node} (h : Lies source start stop node) :
    node.span = .ofOffsets source start stop :=
  (lies_iff.1 h).1

theorem Lies.le {node : Node} (h : Lies source start stop node) : start ≤ stop :=
  (lies_iff.1 h).2.1

namespace LieBetween

theorem le {nodes : List Node} (h : LieBetween source start stop nodes) : start ≤ stop := by
  induction nodes generalizing start with
  | nil => exact h
  | cons node rest ih =>
    obtain ⟨a, b, ha, hnode, hrest⟩ := h
    exact ha.trans (hnode.le.trans (ih hrest))

theorem exists_lies {nodes : List Node} (h : LieBetween source start stop nodes) {node : Node}
    (hnode : node ∈ nodes) : ∃ a b, start ≤ a ∧ b ≤ stop ∧ Lies source a b node := by
  induction nodes generalizing start with
  | nil => cases hnode
  | cons first rest ih =>
    obtain ⟨a, b, ha, hfirst, hrest⟩ := h
    rcases List.mem_cons.1 hnode with rfl | hmem
    · exact ⟨a, b, ha, hrest.le, hfirst⟩
    · obtain ⟨c, d, hc, hd, hlies⟩ := ih hrest hmem
      exact ⟨c, d, ha.trans (hfirst.le.trans hc), hd, hlies⟩

theorem within {nodes : List Node} (h : LieBetween source start stop nodes)
    (hstop : stop ≤ source.length) {node : Node} (hnode : node ∈ nodes) :
    node.span.Within (.ofOffsets source start stop) := by
  obtain ⟨a, b, ha, hb, hlies⟩ := h.exists_lies hnode
  rw [hlies.span_eq]
  exact Span.within_ofOffsets ha hlies.le hb hstop

theorem pairwise {nodes : List Node} (h : LieBetween source start stop nodes)
    (hstop : stop ≤ source.length) : nodes.Pairwise fun a b ↦ a.span.Before b.span := by
  induction nodes generalizing start with
  | nil => exact .nil
  | cons node rest ih =>
    obtain ⟨a, b, ha, hnode, hrest⟩ := h
    refine List.pairwise_cons.2 ⟨?_, ih hrest⟩
    intro other hother
    rw [hnode.span_eq]
    exact (hrest.within hstop hother).1

end LieBetween

/-- The order of the points carries over to the positions. -/
theorem Lies.nested {node : Node} (h : Lies source start stop node) (hstop : stop ≤ source.length) :
    Nested node := by
  induction node using Node.induction generalizing start stop with
  | step node ih =>
    obtain ⟨hspan, -, hcomment, hchildren⟩ := lies_iff.1 h
    refine .intro ?_ ?_ (hchildren.pairwise hstop) ?_
    · intro hkind
      refine ⟨?_, (hcomment hkind).2⟩
      rw [Node.start, Node.stop, hspan]
      exact Span.start_lt_stop_ofOffsets (hcomment hkind).1 hstop
    · intro child hchild
      rw [hspan]
      exact hchildren.within hstop hchild
    · intro child hchild
      obtain ⟨a, b, -, hb, hlies⟩ := hchildren.exists_lies hchild
      exact ih child hchild hlies (hb.trans hstop)

end Offsets

end Node

end ClassScript.JavaScript
