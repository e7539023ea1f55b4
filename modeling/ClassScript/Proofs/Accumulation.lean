import ClassScript.Proofs.Addresses
import Mathlib.Data.List.Induction
import Mathlib.Data.List.TakeWhile

/-!
# Attaching remarks again and again

Remarks may be attached to an analysis that has remarks from before. Nothing but remarks changes then:
the analysis without its remarks stays what it is. Each entry collects what the lists give it one after
the other, as if each of them were attached to the analysis without remarks. The outermost class does
not collect: the last list that starts before its function replaces what it had.
-/

namespace ClassScript

def Holder.bare (holder : Holder) : Holder := { holder with remarks := [] }

def Bucket.bare (bucket : Bucket) : Bucket :=
  bucket.map fun entry ↦ (entry.1, { entry.2 with remarks := [] })

namespace ClassAnalysis

open Attachment

mutual

/-- A class without the remarks on itself, on its declarations and on all that is nested in it. -/
def bare : ClassAnalysis → ClassAnalysis
  | mk facts nested =>
    mk { facts with
         aspects := facts.aspects.map fun entry ↦ (entry.1, Bucket.bare entry.2)
         remarks := [] }
      (bareNested nested)

def bareNested : List (Text × ClassAnalysis) → List (Text × ClassAnalysis)
  | [] => []
  | (name, inner) :: rest => (name, bare inner) :: bareNested rest

end

theorem bareNested_eq_map (nested : List (Text × ClassAnalysis)) :
    bareNested nested = nested.map fun entry ↦ (entry.1, entry.2.bare) := by
  induction nested with
  | nil => rfl
  | cons entry rest ih => rw [bareNested, ih, List.map_cons]

theorem bare_eq (analysis : ClassAnalysis) :
    analysis.bare =
      mk { analysis.facts with
           aspects := analysis.facts.aspects.map fun entry ↦ (entry.1, Bucket.bare entry.2)
           remarks := [] }
        (analysis.nested.map fun entry ↦ (entry.1, entry.2.bare)) := by
  obtain ⟨facts, nested⟩ := analysis
  rw [bare, bareNested_eq_map]
  rfl

theorem facts_bare (analysis : ClassAnalysis) :
    analysis.bare.facts =
      { analysis.facts with
        aspects := analysis.facts.aspects.map fun entry ↦ (entry.1, Bucket.bare entry.2)
        remarks := [] } := by
  rw [bare_eq]
  rfl

theorem nested_bare (analysis : ClassAnalysis) :
    analysis.bare.nested = analysis.nested.map fun entry ↦ (entry.1, entry.2.bare) := by
  rw [bare_eq]
  rfl

theorem buckets_bare (analysis : ClassAnalysis) :
    analysis.bare.buckets =
      analysis.buckets.map fun bucket ↦ (bucket.1, bucket.2.map Holder.bare) := by
  have hnested : analysis.bare.nested.map Holder.ofClass =
      (analysis.nested.map Holder.ofClass).map Holder.bare := by
    rw [nested_bare, List.map_map, List.map_map]
    apply List.map_congr_left
    intro entry _
    simp only [Function.comp, Holder.ofClass, Holder.bare, facts_bare]
  rw [buckets, buckets, hnested, facts_bare, List.map_append]
  congr 1
  rw [List.map_map, List.map_map]
  apply List.map_congr_left
  intro entry _
  simp only [Function.comp, Bucket.bare, List.map_map]
  rfl

/-! ## What is found in a class without remarks -/

theorem bucketAt?_bare (aspect? : Option Aspect) (path : List Text) (analysis : ClassAnalysis) :
    analysis.bare.bucketAt? aspect? path =
      (analysis.bucketAt? aspect? path).map (List.map Holder.bare) := by
  induction path generalizing analysis with
  | nil => rw [bucketAt?, bucketAt?, buckets_bare, Table.get?_map]
  | cons name path ih =>
    rw [bucketAt?, bucketAt?, nested_bare, Table.get?_map]
    cases Table.get? name analysis.nested with
    | none => rfl
    | some inner => exact ih inner

theorem remarksAt?_bare (address : Address) (analysis : ClassAnalysis) :
    analysis.bare.remarksAt? address = (analysis.remarksAt? address).map fun _ ↦ [] := by
  rw [remarksAt?, remarksAt?, bucketAt?_bare]
  cases analysis.bucketAt? address.aspect? address.path with
  | none => rfl
  | some holders =>
    simp only [Option.map_some, Option.bind_some, List.find?_map, Option.map_map]
    rfl

/-- What an entry gets does not depend on remarks that are there before. -/
theorem shareAt_bare (remarks : List Remark) (address : Address) (analysis : ClassAnalysis) :
    analysis.bare.shareAt remarks address = analysis.shareAt remarks address := by
  rw [shareAt, shareAt, bucketAt?_bare, Option.map_map]
  congr 2
  funext holders
  simp only [Function.comp, shareOf, List.map_map, List.findIdx_map]
  rfl

theorem bare_placeInBucket (remarks : List Remark) (bucket : Bucket) :
    Bucket.bare (placeInBucket remarks bucket) = Bucket.bare bucket := by
  apply List.ext_getElem
  · simp [Bucket.bare, placeInBucket, length_place]
  · intro index _ _
    simp [Bucket.bare, placeInBucket]

/-- Placing remarks changes nothing but remarks. -/
theorem bare_placeRemarks (remarks own : List Remark) (analysis : ClassAnalysis) :
    ((analysis.placeRemarks remarks).withRemarks own).bare = analysis.bare := by
  induction analysis using nestedInduction generalizing own with
  | step analysis ih =>
    rw [bare_eq, bare_eq analysis, facts_withRemarks, nested_withRemarks, facts_placeRemarks,
      nested_placeRemarks]
    congr 1
    · simp only [List.map_map, Function.comp_def, bare_placeInBucket]
    · apply List.ext_getElem
      · simp [length_place]
      · intro index hindex _
        have hlt : index < analysis.nested.length := by
          simp [length_place] at hindex
          exact hindex
        simp only [List.getElem_map, List.getElem_zipWith]
        rw [ih _ (List.getElem_mem hlt)]

/-! ## One attachment -/

theorem bare_attach (remarks : List Remark) (analysis : ClassAnalysis) :
    (analysis.attach remarks).bare = analysis.bare := by
  rw [attach_eq_placeRemarks, bare_placeRemarks]

theorem remarks_attach (remarks : List Remark) (analysis : ClassAnalysis) :
    (analysis.attach remarks).facts.remarks = analysis.ownRemarks remarks := by
  rw [attach_eq_placeRemarks, facts_withRemarks]

def StartsAfter (analysis : ClassAnalysis) (remark : Remark) : Prop :=
  ∃ start ∈ analysis.facts.start, remark.start < start

/-- The longest initial part of a list of remarks that stands before the function of a class. -/
structure IsClassGroup (analysis : ClassAnalysis) (remarks group : List Remark) : Prop where
  initial : group <+: remarks
  before : ∀ remark ∈ group, analysis.StartsAfter remark
  longest : ∀ other, other <+: remarks → (∀ remark ∈ other, analysis.StartsAfter remark) →
    other <+: group

theorem isClassGroup_classRemarks (remarks : List Remark) (analysis : ClassAnalysis) :
    analysis.IsClassGroup remarks (analysis.classRemarks remarks) := by
  unfold classRemarks
  cases hstart : analysis.facts.start with
  | none =>
    dsimp only
    refine ⟨List.nil_prefix, by simp, ?_⟩
    intro other _ hbefore
    apply List.prefix_nil.2
    apply List.eq_nil_iff_forall_not_mem.2
    intro remark hremark
    obtain ⟨start, hsome, _⟩ := hbefore remark hremark
    rw [hstart] at hsome
    cases hsome
  | some start =>
    have hiff (remark : Remark) : analysis.StartsAfter remark ↔ remark.start < start := by
      simp [StartsAfter, hstart]
    dsimp only
    refine ⟨List.takeWhile_prefix _, ?_, ?_⟩
    · intro remark hremark
      have hlt := List.mem_takeWhile_imp hremark
      exact (hiff remark).2 (of_decide_eq_true hlt)
    · rintro other ⟨rest, rfl⟩ hbefore
      rw [List.takeWhile_append_of_pos]
      · exact List.prefix_append _ _
      · intro remark hremark
        exact decide_eq_true ((hiff remark).1 (hbefore remark hremark))

/-! ## Attachments one after the other -/

def attachAll (lists : List (List Remark)) (analysis : ClassAnalysis) : ClassAnalysis :=
  lists.foldl (fun analysis remarks ↦ analysis.attach remarks) analysis

/-- Attaching list after list changes nothing but remarks. -/
theorem bare_attachAll (lists : List (List Remark)) (analysis : ClassAnalysis) :
    (analysis.attachAll lists).bare = analysis.bare := by
  induction lists generalizing analysis with
  | nil => rfl
  | cons remarks rest ih => exact (ih _).trans (bare_attach remarks analysis)

/-- What an entry gets of a list is the same before and after other lists are attached. -/
theorem shareAt_attachAll (lists : List (List Remark)) (remarks : List Remark) (address : Address)
    (analysis : ClassAnalysis) :
    (analysis.attachAll lists).shareAt remarks address = analysis.shareAt remarks address := by
  rw [← shareAt_bare, bare_attachAll, shareAt_bare]

theorem attachAll_concat (lists : List (List Remark)) (remarks : List Remark)
    (analysis : ClassAnalysis) :
    analysis.attachAll (lists ++ [remarks]) = (analysis.attachAll lists).attach remarks :=
  List.foldl_concat _ _ _ _

/-- Each entry collects its shares of the lists, in the order in which they are attached. -/
theorem remarksAt?_attachAll (lists : List (List Remark)) (address : Address)
    (analysis : ClassAnalysis) :
    (analysis.attachAll lists).remarksAt? address =
      (analysis.remarksAt? address).map
        (· ++ lists.flatMap fun remarks ↦ analysis.shareAt (sorted remarks) address) := by
  induction lists using List.reverseRecOn with
  | nil => simp [attachAll]
  | append_singleton lists remarks ih =>
    rw [attachAll_concat, remarksAt?_attach, shareAt_attachAll, ih, Option.map_map]
    simp [Function.comp_def]

theorem start_attachAll (lists : List (List Remark)) (analysis : ClassAnalysis) :
    (analysis.attachAll lists).facts.start = analysis.facts.start := by
  have hstart (other : ClassAnalysis) : other.bare.facts.start = other.facts.start := by
    rw [facts_bare]
  rw [← hstart, bare_attachAll, hstart]

/-- What one attachment after the other does to an analysis. -/
structure Accumulates (lists : List (List Remark)) (analysis final : ClassAnalysis) : Prop where
  /-- Nothing but remarks changes. -/
  frame : final.bare = analysis.bare
  /-- Every entry has its remarks and then, list by list, what the list alone would give it if there
  were no remarks before. -/
  entries : ∀ address own, analysis.remarksAt? address = some own →
    ∃ gains : List (List Remark),
      lists.map (fun remarks ↦ (analysis.bare.attach remarks).remarksAt? address) =
          gains.map some ∧
      final.remarksAt? address = some (own ++ gains.flatten)
  /-- The class has the remarks of the last list that starts with remarks on it, or its own ones. -/
  outermost : (∃ earlier remarks later group, lists = earlier ++ remarks :: later ∧
      analysis.IsClassGroup remarks group ∧ group ≠ [] ∧
      (∀ other ∈ later, analysis.IsClassGroup other []) ∧ final.facts.remarks = group) ∨
    (∀ remarks ∈ lists, analysis.IsClassGroup remarks []) ∧
      final.facts.remarks = analysis.facts.remarks

/-- The outermost class has the group of the last list that gives it one, and what it had if no list
does. -/
theorem outermost_attachAll (lists : List (List Remark)) (analysis : ClassAnalysis) :
    (∃ earlier remarks later, lists = earlier ++ remarks :: later ∧
      analysis.classRemarks remarks ≠ [] ∧
      (∀ other ∈ later, analysis.classRemarks other = []) ∧
      (analysis.attachAll lists).facts.remarks = analysis.classRemarks remarks) ∨
    (∀ remarks ∈ lists, analysis.classRemarks remarks = []) ∧
      (analysis.attachAll lists).facts.remarks = analysis.facts.remarks := by
  induction lists using List.reverseRecOn with
  | nil => exact .inr ⟨List.forall_mem_nil _, rfl⟩
  | append_singleton lists remarks ih =>
    have hclass : (analysis.attachAll lists).classRemarks remarks = analysis.classRemarks remarks := by
      rw [classRemarks, start_attachAll, ← classRemarks]
    rw [attachAll_concat, remarks_attach, ownRemarks, hclass]
    by_cases hempty : analysis.classRemarks remarks = []
    · -- the list adds nothing to the class, so what was said of the earlier lists still holds
      rw [if_pos (List.isEmpty_iff.2 hempty)]
      apply ih.imp
      · rintro ⟨earlier, last, later, rfl, hlast, hlater, hremarks⟩
        refine ⟨earlier, last, later ++ [remarks], by simp, hlast, ?_, hremarks⟩
        simpa [or_imp, forall_and, hempty] using hlater
      · rintro ⟨hlists, hremarks⟩
        refine ⟨?_, hremarks⟩
        simpa [or_imp, forall_and, hempty] using hlists
    · rw [if_neg (by simpa using hempty)]
      exact .inl ⟨lists, remarks, [], rfl, hempty, List.forall_mem_nil _, rfl⟩

/-- Attaching lists of remarks one after the other changes nothing but remarks; each entry collects
what each list gives to it, and the outermost class keeps the last remarks that are on it. -/
theorem attachAll_accumulates (lists : List (List Remark)) (analysis : ClassAnalysis) :
    Accumulates lists analysis (analysis.attachAll lists) := by
  have hgroup (remarks : List Remark) := isClassGroup_classRemarks remarks analysis
  constructor
  case frame => exact bare_attachAll lists analysis
  case entries =>
    intro address own hown
    refine ⟨lists.map fun remarks ↦ analysis.shareAt (sorted remarks) address, ?_, ?_⟩
    · rw [List.map_map]
      apply List.map_congr_left
      intro remarks _
      rw [remarksAt?_attach, remarksAt?_bare, shareAt_bare, hown]
      rfl
    · rw [remarksAt?_attachAll, hown, List.flatMap_def]
      rfl
  case outermost =>
    apply (outermost_attachAll lists analysis).imp
    · rintro ⟨earlier, remarks, later, hlists, hne, hlater, hremarks⟩
      exact ⟨earlier, remarks, later, _, hlists, hgroup remarks, hne,
        fun other hother ↦ hlater other hother ▸ hgroup other, hremarks⟩
    · rintro ⟨hnone, hremarks⟩
      exact ⟨fun remarks hmem ↦ hnone remarks hmem ▸ hgroup remarks, hremarks⟩

end ClassAnalysis

end ClassScript
