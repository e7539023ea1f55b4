import ClassScript.Proofs.Buckets
import ClassScript.Proofs.Merge

/-!
# Placing remarks, bucket by bucket

Placing remarks in a class changes nothing but the remarks of its entries, and it treats all buckets
alike: each entry keeps its remarks and gets more behind them. The nested classes are one bucket among
the others, and what is placed inside a nested class does not depend on what is placed on it.
-/

namespace ClassScript

namespace Holder

def document (holder : Holder) (more : List Remark) : Holder :=
  { holder with remarks := holder.remarks ++ more }

end Holder

namespace Attachment

/-- A bucket after remarks have been placed in it. -/
def documented (remarks : List Remark) (holders : List Holder) : List Holder :=
  holders.zipWith Holder.document (place remarks (holders.map Holder.site))

theorem map_ofDeclaration_placeInBucket (remarks : List Remark) (bucket : Bucket) :
    (placeInBucket remarks bucket).map Holder.ofDeclaration =
      documented remarks (bucket.map Holder.ofDeclaration) := by
  rw [placeInBucket, documented, List.map_map, List.map_zipWith, List.zipWith_map_left]
  rfl

theorem length_documented (remarks : List Remark) (holders : List Holder) :
    (documented remarks holders).length = holders.length := by
  rw [documented, List.length_zipWith, length_place, List.length_map, Nat.min_self]

/-- Without remarks nothing is placed. -/
theorem zipWith_place_nil {α : Type} {add : α → List Remark → α} (hadd : ∀ entry, add entry [] = entry)
    (entries : List α) (sites : List (Option Site)) (hlength : entries.length = sites.length) :
    entries.zipWith add (place [] sites) = entries := by
  have hnothing : ∀ ordered : List (Nat × Site), merge [] ordered = [] := fun _ ↦ by
    rw [merge]
  apply List.ext_getElem
  · rw [List.length_zipWith, length_place, hlength, Nat.min_self]
  · intro index _ _
    simp [place, placedAt, hnothing, hadd]

theorem placeInBucket_nil (bucket : Bucket) : placeInBucket [] bucket = bucket :=
  zipWith_place_nil (fun entry ↦ by simp) bucket _ (List.length_map _).symm

end Attachment

namespace ClassAnalysis

open Attachment

theorem placeNested_eq_map (remarks : List Remark) (nested : List (Text × ClassAnalysis)) :
    placeNested remarks nested = nested.map fun entry ↦ (entry.1, placeRemarks remarks entry.2) := by
  induction nested with
  | nil => rfl
  | cons entry rest ih => rw [placeNested, ih, List.map_cons]

mutual

theorem placeRemarks_nil : (analysis : ClassAnalysis) → analysis.placeRemarks [] = analysis
  | mk facts nested => by
    have haspects : facts.aspects.map (fun entry ↦ (entry.1, placeInBucket [] entry.2)) =
        facts.aspects := by
      simp [placeInBucket_nil]
    have hnested : nested.zipWith (fun entry more ↦ (entry.1, entry.2.addRemarks more))
        (place [] (nested.map fun entry ↦ entry.2.facts.site)) = nested := by
      apply zipWith_place_nil _ nested _ (List.length_map _).symm
      rintro ⟨name, inner⟩
      cases inner
      simp [addRemarks, mapFacts]
    rw [placeRemarks, placeNested_nil nested, haspects, hnested]

theorem placeNested_nil : (nested : List (Text × ClassAnalysis)) → placeNested [] nested = nested
  | [] => rfl
  | (name, inner) :: rest => by
    rw [placeNested, placeRemarks_nil inner, placeNested_nil rest]

end

def withRemarks (own : List Remark) : ClassAnalysis → ClassAnalysis :=
  mapFacts fun facts ↦ { facts with remarks := own }

@[simp]
theorem facts_withRemarks (own : List Remark) (analysis : ClassAnalysis) :
    (analysis.withRemarks own).facts = { analysis.facts with remarks := own } := by
  cases analysis
  rfl

@[simp]
theorem nested_withRemarks (own : List Remark) (analysis : ClassAnalysis) :
    (analysis.withRemarks own).nested = analysis.nested := by
  cases analysis
  rfl

@[simp]
theorem buckets_withRemarks (own : List Remark) (analysis : ClassAnalysis) :
    (analysis.withRemarks own).buckets = analysis.buckets := by
  cases analysis
  rfl

theorem addRemarks_eq (more : List Remark) (analysis : ClassAnalysis) :
    analysis.addRemarks more = analysis.withRemarks (analysis.facts.remarks ++ more) := by
  cases analysis
  rfl

theorem facts_placeRemarks (remarks : List Remark) (analysis : ClassAnalysis) :
    (analysis.placeRemarks remarks).facts =
      { analysis.facts with
        aspects := analysis.facts.aspects.map fun entry ↦
          (entry.1, placeInBucket remarks entry.2) } := by
  cases analysis
  rw [placeRemarks]
  rfl

/-- A nested class gets remarks for its own entries and those that stand before it. -/
theorem nested_placeRemarks (remarks : List Remark) (analysis : ClassAnalysis) :
    (analysis.placeRemarks remarks).nested =
      analysis.nested.zipWith
        (fun entry more ↦
          (entry.1, (entry.2.placeRemarks remarks).withRemarks (entry.2.facts.remarks ++ more)))
        (place remarks (analysis.nested.map fun entry ↦ entry.2.facts.site)) := by
  obtain ⟨facts, nested⟩ := analysis
  have hsites : (placeNested remarks nested).map (fun entry ↦ entry.2.facts.site) =
      nested.map fun entry ↦ entry.2.facts.site := by
    rw [placeNested_eq_map, List.map_map]
    apply List.map_congr_left
    intro entry _
    simp only [Function.comp, facts_placeRemarks]
  rw [placeRemarks, hsites, placeNested_eq_map]
  refine List.zipWith_map_left.trans ?_
  congr 1
  funext entry more
  rw [addRemarks_eq, facts_placeRemarks]

/-- Placing remarks in a class documents each of its buckets. -/
theorem buckets_placeRemarks (remarks : List Remark) (analysis : ClassAnalysis) :
    (analysis.placeRemarks remarks).buckets =
      analysis.buckets.map fun bucket ↦ (bucket.1, documented remarks bucket.2) := by
  have hnested : (analysis.placeRemarks remarks).nested.map Holder.ofClass =
      documented remarks (analysis.nested.map Holder.ofClass) := by
    rw [nested_placeRemarks, documented, List.map_zipWith, List.zipWith_map_left, List.map_map]
    congr 1
    funext entry more
    simp only [Holder.ofClass, Holder.document, facts_withRemarks, facts_placeRemarks]
  rw [buckets, buckets, hnested, facts_placeRemarks, List.map_append, List.map_map, List.map_map]
  congr 1
  apply List.map_congr_left
  intro entry _
  simp only [Function.comp, map_ofDeclaration_placeInBucket]

/-- The classes found after remarks have been placed are those found before, with remarks placed in
them and some on themselves. -/
theorem exists_of_contains_placeRemarks {remarks own : List Remark} {analysis found : ClassAnalysis}
    (h : ((analysis.placeRemarks remarks).withRemarks own).Contains found) :
    ∃ inner own', analysis.Contains inner ∧
      found = (inner.placeRemarks remarks).withRemarks own' := by
  generalize houter : (analysis.placeRemarks remarks).withRemarks own = outer at h
  induction h generalizing analysis own with
  | self outer => exact ⟨analysis, own, .self analysis, houter.symm⟩
  | nested hinner _ ih =>
    rw [← houter, nested_withRemarks, nested_placeRemarks] at hinner
    obtain ⟨index, hindex⟩ := List.mem_iff_getElem?.1 hinner
    obtain ⟨entry, more, hentry, _, heq⟩ := List.getElem?_zipWith_eq_some.1 hindex
    cases heq
    obtain ⟨inner, own', hcontains, hfound⟩ := ih rfl
    exact ⟨inner, own', .nested (List.mem_of_getElem? hentry) hcontains, hfound⟩

/-! ## Attaching remarks in order -/

theorem sorted_eq_self {remarks : List Remark} (h : remarks.Pairwise (·.start ≤ ·.start)) :
    sorted remarks = remarks :=
  List.mergeSort_of_pairwise (h.imp decide_eq_true)

/-- In order, the remarks before a position are the first ones. -/
theorem takeWhile_eq_filter {remarks : List Remark} (h : remarks.Pairwise (·.start ≤ ·.start))
    (position : Position) :
    remarks.takeWhile (fun remark ↦ decide (remark.start < position)) =
      remarks.filter fun remark ↦ remark.start < position := by
  induction remarks with
  | nil => rfl
  | cons remark rest ih =>
    by_cases hlt : remark.start < position
    · rw [List.takeWhile_cons_of_pos (by simpa using hlt),
        List.filter_cons_of_pos (by simpa using hlt), ih h.of_cons]
    · rw [List.takeWhile_cons_of_neg (by simpa using hlt),
        List.filter_cons_of_neg (by simpa using hlt), eq_comm, List.filter_eq_nil_iff]
      intro other hother
      have hle := List.rel_of_pairwise_cons h hother
      simpa using (not_lt.1 hlt).trans hle

/-- The remarks that a class has on itself after remarks have been attached. -/
def ownRemarks (remarks : List Remark) (analysis : ClassAnalysis) : List Remark :=
  if (analysis.classRemarks remarks).isEmpty then analysis.facts.remarks
  else analysis.classRemarks remarks

/-- Remarks are attached by placing them in order, with those before the function on the class. -/
theorem attach_eq_placeRemarks (remarks : List Remark) (analysis : ClassAnalysis) :
    analysis.attach remarks =
      (analysis.placeRemarks (sorted remarks)).withRemarks (analysis.ownRemarks remarks) := by
  obtain ⟨facts, nested⟩ := analysis
  rw [attach, ownRemarks]
  dsimp only
  cases hremarks : remarks.isEmpty with
  | true =>
    have hnone : (mk facts nested).classRemarks [] = [] := by
      unfold classRemarks
      split
      · rfl
      · rfl
    rw [List.isEmpty_iff.1 hremarks, hnone, sorted_eq_self .nil, placeRemarks_nil, placeRemarks_nil]
    rfl
  | false =>
    split
    · next h => cases h
    · split
      · rw [placeRemarks]
        rfl
      · rw [mapFacts, placeRemarks, placeRemarks]
        rfl

theorem attach_eq {remarks : List Remark} (hsorted : remarks.Pairwise (·.start ≤ ·.start))
    (analysis : ClassAnalysis) :
    analysis.attach remarks =
      (analysis.placeRemarks remarks).withRemarks (analysis.ownRemarks remarks) := by
  rw [attach_eq_placeRemarks, sorted_eq_self hsorted]

/-- A class without remarks gets those that stand before its function. -/
theorem ownRemarks_eq {remarks : List Remark} (hsorted : remarks.Pairwise (·.start ≤ ·.start))
    {analysis : ClassAnalysis} {start : Position} (hstart : analysis.facts.start = some start)
    (hbare : analysis.facts.remarks = []) :
    analysis.ownRemarks remarks = remarks.filter fun remark ↦ remark.start < start := by
  have hown : analysis.classRemarks remarks = remarks.filter fun remark ↦ remark.start < start := by
    rw [classRemarks, hstart]
    exact takeWhile_eq_filter hsorted start
  rw [ownRemarks, hown, hbare]
  split
  · next hempty => exact (List.isEmpty_iff.1 hempty).symm
  · rfl

end ClassAnalysis

end ClassScript
