import ClassScript.Proofs.Gaps
import ClassScript.Proofs.Layout
import ClassScript.Proofs.Traversal

/-!
# Document order

The nodes of a script are visited one by one in document order. So its comments lie one after the other,
its remarks are found in strictly increasing positions, and attaching them in the order in which they are
found changes nothing: there is nothing to sort, and the remarks up to the first that does not stand
before the function of the class are all that do.
-/

namespace ClassScript

open JavaScript (Comment Node Script Span)
open Recognizer (findClass)

/-- What document order means for a script and for all that is made of its comments. -/
structure InDocumentOrder (source : List Char) (script : Script) : Prop where
  /-- Nodes are visited as the recursion lists them. -/
  visited : Node.walk [script.root] = script.root.preorder
  /-- Every place of the tree is visited once, and each before those that come after it. -/
  places : ∃ places : List (List Nat), places.Pairwise (· < ·) ∧
    (∀ place, place ∈ places ↔ (script.root.at? place).isSome) ∧
    places.map script.root.at? = (Node.walk [script.root]).map some
  /-- No comment is empty, and each ends before the next one starts. -/
  apart : Comment.Apart script.comments
  /-- Remarks are found in strictly increasing positions. -/
  remarks : ∀ marker, (Remark.collect marker script).Pairwise (·.start < ·.start)
  /-- There is nothing to sort among the remarks. -/
  sorted : ∀ marker, Attachment.sorted (Remark.collect marker script) = Remark.collect marker script
  /-- The remarks up to the first that is not before the function of a class are all that are. -/
  group : ∀ marker (analysis : ClassAnalysis) start, analysis.facts.start = some start →
    analysis.classRemarks (Remark.collect marker script) =
      (Remark.collect marker script).filter fun remark ↦ remark.start < start
  /-- An analysis of the script has these remarks on its class and the others where they are placed in
  the order in which they are found. -/
  analyzed : ∀ settings moduleName className analysis,
    analyzeScript settings moduleName className source = .ok analysis →
      ∃ shape recognized, findClass script.statements = .ok shape ∧
        ((Recognizer.mk moduleName className .fresh).recognize script.statements).2 = .ok recognized ∧
        analysis = (recognized.placeRemarks (Remark.collect [settings.marker] script)).withRemarks
          ((Remark.collect [settings.marker] script).filter fun remark ↦
            remark.start < shape.function.start)

/-- The comments of whatever tree lies in the encoded source are apart at the positions to which their
points are converted, and a script that is read from the source is in document order. -/
theorem read_inDocumentOrder (source : List Char) :
    (∀ root : Node, root.Lies source 0 source.length →
      Comment.Apart (((Node.walk [root]).filter (·.kind == .comment)).map Comment.ofNode)) ∧
      ∀ script, Script.read source = .ok script → InDocumentOrder source script := by
  refine ⟨?_, ?_⟩
  · intro root hlies
    rw [Node.filter_walk]
    exact (hlies.nested le_rfl).apart
  intro script h
  have hstrict (marker : Text) := Remark.pairwise_collect marker h
  have hsorted (marker : Text) :
      (Remark.collect marker script).Pairwise (·.start ≤ ·.start) :=
    (hstrict marker).imp fun {_ _} hlt ↦ hlt.le
  constructor
  case visited => exact script.root.walk_eq_preorder
  case places =>
    refine ⟨script.root.places, script.root.pairwise_places, script.root.mem_places_iff, ?_⟩
    rw [Node.walk_eq_preorder, Node.map_at?_places]
  case apart => exact Script.apart_of_read h
  case remarks => exact hstrict
  case sorted => exact fun marker ↦ ClassAnalysis.sorted_eq_self (hsorted marker)
  case group =>
    intro marker analysis start hstart
    rw [ClassAnalysis.classRemarks, hstart]
    exact ClassAnalysis.takeWhile_eq_filter (hsorted marker) start
  case analyzed =>
    intro settings moduleName className analysis hanalysis
    obtain ⟨script', shape, described, hscript, hshape, hdescribed, rfl⟩ :=
      analyzeScript_eq_ok hanalysis
    obtain rfl := Except.ok.inj (hscript.symm.trans h)
    refine ⟨shape, described, hshape, ?_, ?_⟩
    · rw [Recognizer.snd_recognize_fresh, hshape]
      exact hdescribed
    · rw [ClassAnalysis.attach_eq (hsorted _), ClassAnalysis.ownRemarks_eq (hsorted _)
        (Recognizer.start_of_describe hdescribed) (Recognizer.remarks_of_describe hdescribed)]

/-- Remarks before, in and after a class, on lines with characters of several widths. -/
def remarkedSource : List Char :=
  "/* ä\n */ //@ 😀
  /*😀*/ /*@b*/ 'B'.subclass(function (I) { //@ c
    I.have({ /*@d*/ x: [/*@e*/] /* f */ });
  }); //@ g".toList

/-- The first two comments of the source at the positions to which their points are converted. -/
def remarkedTree : Node :=
  .mk .program none ⟨⟨1, 0⟩, ⟨5, 11⟩⟩ []
    [.mk .comment none ⟨⟨1, 0⟩, ⟨2, 3⟩⟩ (remarkedSource.take 8) [],
      .mk .comment none ⟨⟨2, 4⟩, ⟨2, 10⟩⟩ ((remarkedSource.drop 9).take 5) []]

theorem lies_remarkedTree : remarkedTree.Lies remarkedSource 0 remarkedSource.length := by
  have hoffsets : remarkedSource.length = 119 ∧
      [0, 8, 9, 14, 119].map (Position.ofOffset remarkedSource) =
        [⟨1, 0⟩, ⟨2, 3⟩, ⟨2, 4⟩, ⟨2, 10⟩, ⟨5, 11⟩] := by
    decide +kernel
  simp only [List.map_cons, List.map_nil, List.cons.injEq, and_true] at hoffsets
  obtain ⟨hlength, h0, h8, h9, h14, h119⟩ := hoffsets
  simp only [remarkedTree, Node.Lies, Node.LieBetween, Span.ofOffsets_eq, hlength]
  refine ⟨by rw [h0, h119], by decide, by decide, 0, 8, by decide, ?_, 9, 14, by decide, ?_, by decide⟩
  · exact ⟨by rw [h0, h8], by decide, by decide, by decide⟩
  · exact ⟨by rw [h9, h14], by decide, by decide, by decide⟩

set_option maxRecDepth 100000 in
/-- Comments inside of other nodes are met in their places, and the remarks before the function are
those of the class. -/
theorem read_remarkedSource :
    Comment.Apart (((Node.walk [remarkedTree]).filter (·.kind == .comment)).map Comment.ofNode) ∧
    ∃ script analysis, Script.read remarkedSource = .ok script ∧
      analyzeScript .default "m" "C" remarkedSource = .ok analysis ∧
      script.comments.map (·.span.start) =
        [⟨1, 0⟩, ⟨2, 4⟩, ⟨3, 2⟩, ⟨3, 9⟩, ⟨3, 44⟩, ⟨4, 13⟩, ⟨4, 24⟩, ⟨4, 32⟩, ⟨5, 6⟩] ∧
      analysis.facts.remarks.map (·.start) = [⟨2, 4⟩, ⟨3, 9⟩] ∧
      InDocumentOrder remarkedSource script := by
  have hread : (Script.read remarkedSource).toOption.map (fun script ↦
      script.comments.map (·.span.start)) =
      some [⟨1, 0⟩, ⟨2, 4⟩, ⟨3, 2⟩, ⟨3, 9⟩, ⟨3, 44⟩, ⟨4, 13⟩, ⟨4, 24⟩, ⟨4, 32⟩, ⟨5, 6⟩] := by
    decide +kernel
  have hanalyzed : (analyzeScript .default "m" "C" remarkedSource).toOption.map (fun analysis ↦
      analysis.facts.remarks.map (·.start)) = some [⟨2, 4⟩, ⟨3, 9⟩] := by
    decide +kernel
  obtain ⟨script, hscript, hcomments⟩ := exists_ok_of_toOption hread
  obtain ⟨analysis, hanalysis, hremarks⟩ := exists_ok_of_toOption hanalyzed
  obtain ⟨hconverted, hordered⟩ := read_inDocumentOrder remarkedSource
  exact ⟨hconverted remarkedTree lies_remarkedTree, script, analysis, hscript, hanalysis, hcomments,
    hremarks, hordered script hscript⟩

end ClassScript
