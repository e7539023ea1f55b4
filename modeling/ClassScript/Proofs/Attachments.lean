import ClassScript.Proofs.Neighbours
import Mathlib.Algebra.Ring.Nat
import Mathlib.Data.List.Perm.Subperm

/-!
# How often a remark is attached

All attachments of an analysis are listed, each with the path of the class, with the bucket of the
entry and with the remark. A remark is attached once at most, or twice, and then to a constant and to
a method that members of one literal declare. The count of remarks can be twice the number of remarks
that a script has, but no more.
-/

namespace ClassScript

open JavaScript (Node)
open Recognizer

/-- A remark that is attached to an entry of a class. -/
structure Attached where
  /-- The names that lead from the outermost class to the class of the entry. -/
  path : List Text
  aspect? : Option Aspect
  remark : Remark

namespace ClassAnalysis

def inBuckets (path : List Text) (buckets : List (Option Aspect × List Holder)) : List Attached :=
  buckets.flatMap fun bucket ↦ bucket.2.flatMap fun holder ↦
    holder.remarks.map fun remark ↦ ⟨path, bucket.1, remark⟩

mutual

/-- The attachments to the entries of a class and of the classes nested in it. -/
def attachedWithin (path : List Text) : ClassAnalysis → List Attached
  | mk facts nested => inBuckets path (buckets (mk facts nested)) ++ attachedAmong path nested

def attachedAmong (path : List Text) : List (Text × ClassAnalysis) → List Attached
  | [] => []
  | (name, inner) :: rest => attachedWithin (path ++ [name]) inner ++ attachedAmong path rest

end

def attached (analysis : ClassAnalysis) : List Attached :=
  analysis.facts.remarks.map (fun remark ↦ ⟨[], none, remark⟩) ++ analysis.attachedWithin []

theorem attachedAmong_eq (path : List Text) (nested : List (Text × ClassAnalysis)) :
    attachedAmong path nested =
      nested.flatMap fun entry ↦ entry.2.attachedWithin (path ++ [entry.1]) := by
  induction nested with
  | nil => rfl
  | cons entry rest ih => rw [attachedAmong, ih, List.flatMap_cons]

/-- A remark within a class is attached to one of its entries or within a class nested in it. -/
theorem attachedWithin_eq (path : List Text) (analysis : ClassAnalysis) :
    analysis.attachedWithin path =
      inBuckets path analysis.buckets ++
        analysis.nested.flatMap fun entry ↦ entry.2.attachedWithin (path ++ [entry.1]) := by
  obtain ⟨facts, nested⟩ := analysis
  rw [attachedWithin, attachedAmong_eq]
  rfl

@[simp]
theorem attachedWithin_withRemarks (path : List Text) (own : List Remark)
    (analysis : ClassAnalysis) :
    (analysis.withRemarks own).attachedWithin path = analysis.attachedWithin path := by
  rw [attachedWithin_eq, attachedWithin_eq, nested_withRemarks, buckets_withRemarks]

theorem flatMap_zipWith {α β γ δ : Type} {f : α → β → γ} {g : γ → List δ} {k : α → List δ}
    (h : ∀ a b, g (f a b) = k a) (as : List α) (bs : List β) (hlength : as.length = bs.length) :
    (as.zipWith f bs).flatMap g = as.flatMap k := by
  induction as generalizing bs with
  | nil => rfl
  | cons a as ih =>
    cases bs with
    | nil => simp at hlength
    | cons b bs =>
      rw [List.zipWith_cons_cons, List.flatMap_cons, List.flatMap_cons, h,
        ih bs (Nat.succ.inj hlength)]

/-- What is attached within a class after remarks have been placed. -/
theorem attachedWithin_placeRemarks (path : List Text) (remarks : List Remark)
    (analysis : ClassAnalysis) :
    (analysis.placeRemarks remarks).attachedWithin path =
      inBuckets path (analysis.buckets.map fun bucket ↦
        (bucket.1, Attachment.documented remarks bucket.2)) ++
        analysis.nested.flatMap fun entry ↦
          (entry.2.placeRemarks remarks).attachedWithin (path ++ [entry.1]) := by
  rw [attachedWithin_eq, buckets_placeRemarks, nested_placeRemarks]
  congr 1
  apply flatMap_zipWith
  · intro entry more
    exact attachedWithin_withRemarks _ _ _
  · rw [Attachment.length_place, List.length_map]

/-- A remark in the buckets of a class is on an entry of one of them. -/
theorem mem_inBuckets {path : List Text} {buckets : List (Option Aspect × List Holder)}
    {x : Attached} :
    x ∈ inBuckets path buckets ↔
      ∃ bucket ∈ buckets, ∃ holder ∈ bucket.2, ∃ remark ∈ holder.remarks,
        x = ⟨path, bucket.1, remark⟩ := by
  simp only [inBuckets, List.mem_flatMap, List.mem_map, eq_comm]

/-! ## Counting attachments -/

theorem foldl_add_length (entries : Bucket) (count : Nat) :
    entries.foldl (fun count e ↦ count + e.2.remarks.length) count =
      count + (entries.map fun e ↦ e.2.remarks.length).sum := by
  induction entries generalizing count with
  | nil => rfl
  | cons entry rest ih => rw [List.foldl_cons, ih, List.map_cons, List.sum_cons, Nat.add_assoc]

theorem ownRemarkCount_eq (facts : ClassFacts) :
    ownRemarkCount facts = facts.remarks.length +
      (facts.aspects.map fun aspect ↦ (aspect.2.map fun e ↦ e.2.remarks.length).sum).sum := by
  have haspects : ∀ (aspects : Table Aspect Bucket) (count : Nat),
      aspects.foldl (fun count entry ↦
        entry.2.foldl (fun count e ↦ count + e.2.remarks.length) count) count =
        count + (aspects.map fun aspect ↦ (aspect.2.map fun e ↦ e.2.remarks.length).sum).sum := by
    intro aspects
    induction aspects with
    | nil => exact fun _ ↦ rfl
    | cons aspect rest ih =>
      intro count
      rw [List.foldl_cons, ih, foldl_add_length, List.map_cons, List.sum_cons, Nat.add_assoc]
  exact haspects _ _

/-- The remarks on a class and on its entries are those it counts for itself and those on the classes
nested in it. -/
theorem length_inBuckets (path : List Text) (analysis : ClassAnalysis) :
    analysis.facts.remarks.length + (inBuckets path analysis.buckets).length =
      ownRemarkCount analysis.facts +
        (analysis.nested.map fun entry ↦ entry.2.facts.remarks.length).sum := by
  rw [ownRemarkCount_eq, Nat.add_assoc]
  simp [inBuckets, buckets, List.length_flatMap, Function.comp_def, Holder.ofDeclaration,
    Holder.ofClass]

mutual

/-- The remarks that are counted are those on the class and those attached within it. -/
theorem remarkCount_eq (path : List Text) : (analysis : ClassAnalysis) →
    analysis.remarkCount = analysis.facts.remarks.length + (analysis.attachedWithin path).length
  | mk facts nested => by
    have hbuckets := length_inBuckets path (mk facts nested)
    have hnested := nestedRemarkCount_eq path nested
    rw [remarkCount, hnested, attachedWithin, List.length_append, ← Nat.add_assoc, ← Nat.add_assoc]
    exact congrArg (· + _) hbuckets.symm

/-- What nested classes count is what is on them and what is attached within them. -/
theorem nestedRemarkCount_eq (path : List Text) : (nested : List (Text × ClassAnalysis)) →
    nestedRemarkCount nested =
      (nested.map fun entry ↦ entry.2.facts.remarks.length).sum + (attachedAmong path nested).length
  | [] => rfl
  | (name, inner) :: rest => by
    have hinner := remarkCount_eq (path ++ [name]) inner
    have hrest := nestedRemarkCount_eq path rest
    rw [nestedRemarkCount, hinner, hrest, attachedAmong, List.length_append, List.map_cons,
      List.sum_cons]
    dsimp only
    omega

end

/-- The attached remarks are as many as the class counts. -/
theorem length_attached (analysis : ClassAnalysis) :
    analysis.attached.length = analysis.remarkCount := by
  rw [attached, List.length_append, List.length_map, remarkCount_eq []]

end ClassAnalysis

/-! ## Attachments of one remark -/

/-- Two attachments of one remark are to a constant and to a method of one side of one class. -/
def Attached.Compatible (a b : Attached) : Prop :=
  a.remark = b.remark → a.path = b.path ∧ ConstantsAndMethods a.aspect? b.aspect?

section Described

variable {moduleName className : Text} {site : Option Site} {shape : ClassShape}
  {analysis : ClassAnalysis} {remarks : List Remark}

/-- Remarks that are placed in a bucket of a class stand in the function of the class. -/
theorem range_of_mem_documented (hfunction : shape.function.isOrderly = true)
    (h : describe moduleName className site shape = .ok analysis)
    (hsorted : remarks.Pairwise (·.start ≤ ·.start)) {bucket : Option Aspect × List Holder}
    (hbucket : bucket ∈ analysis.buckets) {holder : Holder}
    (hholder : holder ∈ Attachment.documented remarks bucket.2) {remark : Remark}
    (hremark : remark ∈ holder.remarks) :
    remark ∈ remarks ∧ shape.function.start ≤ remark.start ∧
      remark.start < shape.function.stop := by
  have hmem := (Attachment.gap_of_mem_documented hsorted
    (separated_of_describe hfunction h hbucket) hholder hremark).1
  obtain ⟨call, member, hdeclared, _, _, _, hremarks⟩ :=
    precededByRemarks hfunction h hsorted hbucket hholder
  obtain ⟨hinside, hstart, _⟩ := hremarks remark hremark
  have hliteral := (occurs_of_mem_keywordCalls (mem_membersOf.1 hdeclared).1).within hfunction
  have hoccurs := occurs_of_mem_declaredMembers hdeclared
  have hend := (start_le_entryStart call (hoccurs.isOrderly hfunction)).2
  exact ⟨hmem, hliteral.1.trans hinside, (hstart.trans hend).trans_le (hoccurs.within hfunction).2⟩

/-- Where the function of a nested class lies. -/
theorem exists_site_of_mem_nested (hfunction : shape.function.isOrderly = true)
    (h : describe moduleName className site shape = .ok analysis) {name : Text}
    {inner : ClassAnalysis} (hinner : (name, inner) ∈ analysis.nested) :
    ∃ className' s shape', describe moduleName className' (some s) shape' = .ok inner ∧
      shape'.function.Occurs shape.function ∧ shape'.function.size < shape.function.size ∧
      s.start = shape'.function.start ∧ shape'.function.stop ≤ s.stop := by
  obtain ⟨call, member, shape', hdeclared, haspect, hshape', hinner'⟩ := exists_of_mem_nested h hinner
  have hmember := occurs_of_mem_declaredMembers hdeclared
  have hoccurs := occurs_of_memberShape? hshape'
  have hsmaller : shape'.function.size < shape.function.size := by
    have h₁ := size_memberShape hshape'
    have h₂ := size_declaredMembers hdeclared
    omega
  exact ⟨_, _, shape', hinner', hoccurs.trans hmember, hsmaller,
    entryStart_of_nested haspect hshape', (hoccurs.within (hmember.isOrderly hfunction)).2⟩

/-- Remarks that are placed within a class stand in its function. -/
theorem range_of_mem_attachedWithin (hfunction : shape.function.isOrderly = true)
    (h : describe moduleName className site shape = .ok analysis)
    (hsorted : remarks.Pairwise (·.start ≤ ·.start)) (path : List Text) {x : Attached}
    (hx : x ∈ (analysis.placeRemarks remarks).attachedWithin path) :
    x.remark ∈ remarks ∧ shape.function.start ≤ x.remark.start ∧
      x.remark.start < shape.function.stop := by
  induction hsize : shape.function.size using Nat.strongRecOn
    generalizing shape analysis className site path with
  | ind size ih =>
    rw [ClassAnalysis.attachedWithin_placeRemarks, List.mem_append] at hx
    rcases hx with hown | hnested
    · obtain ⟨_, hmem, holder, hholder, remark, hremark, rfl⟩ := ClassAnalysis.mem_inBuckets.1 hown
      obtain ⟨bucket, hbucket, rfl⟩ := List.mem_map.1 hmem
      exact range_of_mem_documented hfunction h hsorted hbucket hholder hremark
    · obtain ⟨⟨name, inner⟩, hinner, hx⟩ := List.mem_flatMap.1 hnested
      obtain ⟨_, _, shape', hinner', hoccurs, hsmaller, _⟩ :=
        exists_site_of_mem_nested hfunction h hinner
      have hwithin := hoccurs.within hfunction
      obtain ⟨hmem, hstart, hstop⟩ := ih _ (hsize ▸ hsmaller) (hoccurs.isOrderly hfunction) hinner'
        (path ++ [name]) hx rfl
      exact ⟨hmem, hwithin.1.trans hstart, hstop.trans_le hwithin.2⟩

/-- Two entries of a class that have got one remark are in one bucket, or a constant and a method of one
literal. -/
theorem bucket_eq_of_shared (hfunction : shape.function.isOrderly = true)
    (h : describe moduleName className site shape = .ok analysis)
    (hsorted : remarks.Pairwise (·.start ≤ ·.start)) {a b : Option Aspect × List Holder}
    (ha : a ∈ analysis.buckets) (hb : b ∈ analysis.buckets) {holder other : Holder}
    (hholder : holder ∈ Attachment.documented remarks a.2)
    (hother : other ∈ Attachment.documented remarks b.2) {remark : Remark}
    (hremark : remark ∈ holder.remarks) (hremark' : remark ∈ other.remarks) :
    a.1 = b.1 ∨
      ConstantsAndMethods a.1 b.1 ∧ DeclaredTogether shape.function holder other := by
  have hseparated := separated_of_describe hfunction h ha
  have hseparated' := separated_of_describe hfunction h hb
  obtain ⟨_, s, hs, hinside, hstart, _⟩ :=
    Attachment.gap_of_mem_documented hsorted hseparated hholder hremark
  obtain ⟨_, t, ht, hinside', hstart', _⟩ :=
    Attachment.gap_of_mem_documented hsorted hseparated' hother hremark'
  obtain ⟨original, horiginal, hname, hsite⟩ := Attachment.exists_of_mem_documented hholder
  obtain ⟨original', horiginal', hname', hsite'⟩ := Attachment.exists_of_mem_documented hother
  have hproper := hseparated.proper_of_mem horiginal (hsite.symm.trans hs)
  have hproper' := hseparated'.proper_of_mem horiginal' (hsite'.symm.trans ht)
  rcases bucket_eq_or hfunction h ha hb horiginal horiginal' (hsite.symm.trans hs)
    (hsite'.symm.trans ht) with heq | ⟨hpair, htogether⟩ | hbefore | hafter
  · exact .inl heq
  · rw [DeclaredTogether, ← hname, ← hsite, ← hname', ← hsite'] at htogether
    exact .inr ⟨hpair, htogether⟩
  · exact absurd ((hstart.trans hproper.start_lt).trans_le (hbefore.trans hinside')) (lt_irrefl _)
  · exact absurd ((hstart'.trans hproper'.start_lt).trans_le (hafter.trans hinside)) (lt_irrefl _)

/-- Within the buckets of one class, the attachments of one remark are compatible. -/
theorem pairwise_inBuckets (hfunction : shape.function.isOrderly = true)
    (h : describe moduleName className site shape = .ok analysis)
    (hstrict : remarks.Pairwise (·.start < ·.start)) (path : List Text) :
    (ClassAnalysis.inBuckets path (analysis.buckets.map fun bucket ↦
      (bucket.1, Attachment.documented remarks bucket.2))).Pairwise Attached.Compatible := by
  have hsorted := hstrict.imp fun {_ _} hlt ↦ hlt.le
  unfold ClassAnalysis.inBuckets
  rw [List.flatMap_map]
  refine List.pairwise_flatMap.2 ⟨?_, ?_⟩
  · intro bucket hbucket
    have hseparated := separated_of_describe hfunction h hbucket
    refine List.pairwise_flatMap.2 ⟨?_, ?_⟩
    · intro holder hholder
      rw [List.pairwise_map]
      apply (Attachment.nodup_of_mem_documented hstrict hseparated hholder).imp
      intro a b hne heq
      exact absurd heq hne
    · apply (Attachment.pairwise_documented hsorted hseparated).imp
      intro a b hdisjoint x hx y hy heq
      obtain ⟨remark, hremark, rfl⟩ := List.mem_map.1 hx
      obtain ⟨remark', hremark', rfl⟩ := List.mem_map.1 hy
      cases heq
      exact absurd hremark' (hdisjoint remark hremark)
  · apply (pairwise_buckets h).imp_of_mem
    intro a b ha hb hne x hx y hy heq
    obtain ⟨holder, hholder, hx⟩ := List.mem_flatMap.1 hx
    obtain ⟨remark, hremark, rfl⟩ := List.mem_map.1 hx
    obtain ⟨other, hother, hy⟩ := List.mem_flatMap.1 hy
    obtain ⟨remark', hremark', rfl⟩ := List.mem_map.1 hy
    cases heq
    have hshared := bucket_eq_of_shared hfunction h hsorted ha hb hholder hother hremark hremark'
    exact ⟨rfl, (hshared.resolve_left hne).1⟩

/-- Remarks that are placed within a nested class stand in its site. -/
theorem range_of_nested (hfunction : shape.function.isOrderly = true)
    (h : describe moduleName className site shape = .ok analysis)
    (hsorted : remarks.Pairwise (·.start ≤ ·.start)) {name : Text} {inner : ClassAnalysis}
    (hinner : (name, inner) ∈ analysis.nested) {path : List Text} {x : Attached}
    (hx : x ∈ (inner.placeRemarks remarks).attachedWithin path) :
    ∃ s, inner.facts.site = some s ∧ s.start ≤ x.remark.start ∧ x.remark.start < s.stop := by
  obtain ⟨_, s, shape', hinner', hoccurs, _, hstart, hstop⟩ :=
    exists_site_of_mem_nested hfunction h hinner
  obtain ⟨_, hfrom, hto⟩ :=
    range_of_mem_attachedWithin (hoccurs.isOrderly hfunction) hinner' hsorted path hx
  exact ⟨s, site_of_describe hinner', hstart ▸ hfrom, hto.trans_le hstop⟩

/-- A remark that an entry of a class has got does not stand in the site of a nested class. -/
theorem not_in_nested (hfunction : shape.function.isOrderly = true)
    (h : describe moduleName className site shape = .ok analysis)
    (hsorted : remarks.Pairwise (·.start ≤ ·.start)) {bucket : Option Aspect × List Holder}
    (hbucket : bucket ∈ analysis.buckets) {holder : Holder}
    (hholder : holder ∈ Attachment.documented remarks bucket.2) {remark : Remark}
    (hremark : remark ∈ holder.remarks) {name : Text} {inner : ClassAnalysis}
    (hinner : (name, inner) ∈ analysis.nested) {s : Site} (hs : inner.facts.site = some s) :
    ¬ (s.start ≤ remark.start ∧ remark.start < s.stop) := by
  rintro ⟨hfrom, hto⟩
  have hnested := analysis.nested_mem_buckets
  have hmem : Holder.ofClass (name, inner) ∈ analysis.nested.map Holder.ofClass :=
    List.mem_map_of_mem hinner
  have hseparated := separated_of_describe hfunction h hbucket
  have hproper := (separated_of_describe hfunction h hnested).proper_of_mem hmem hs
  obtain ⟨_, t, ht, hinside, hstart, hothers⟩ :=
    Attachment.gap_of_mem_documented hsorted hseparated hholder hremark
  obtain ⟨original, horiginal, _, hsite⟩ := Attachment.exists_of_mem_documented hholder
  have hproper' := hseparated.proper_of_mem horiginal (hsite.symm.trans ht)
  rcases bucket_eq_or hfunction h hbucket hnested horiginal hmem (hsite.symm.trans ht) hs with
    heq | ⟨⟨_, ⟨_, hnone⟩ | ⟨_, hnone⟩⟩, _⟩ | hbefore | hafter
  · -- the nested class is in the same bucket, where no entry lies across the gap
    have hsame : bucket.2 = analysis.nested.map Holder.ofClass := by
      rw [holders_of_describe h hbucket, holders_of_describe h hnested, heq]
    rw [← hsame] at hmem
    rcases hothers _ hmem s hs with hstop | hle
    · exact absurd hto hstop.not_gt
    · exact absurd (hstart.trans_le (hle.trans hfrom)) (lt_irrefl _)
  · cases hnone
  · cases hnone
  · have hlt := (hstart.trans hproper'.start_lt).trans_le hbefore
    exact absurd (hlt.trans (hproper.inside_lt.trans_le hfrom)) (lt_irrefl _)
  · exact absurd (hto.trans_le (hafter.trans hinside)) (lt_irrefl _)

/-- Within a class the attachments of one remark are compatible. -/
theorem pairwise_attachedWithin (hfunction : shape.function.isOrderly = true)
    (h : describe moduleName className site shape = .ok analysis)
    (hstrict : remarks.Pairwise (·.start < ·.start)) (path : List Text) :
    ((analysis.placeRemarks remarks).attachedWithin path).Pairwise Attached.Compatible := by
  have hsorted := hstrict.imp fun {_ _} hlt ↦ hlt.le
  induction hsize : shape.function.size using Nat.strongRecOn
    generalizing shape analysis className site path with
  | ind size ih =>
    rw [ClassAnalysis.attachedWithin_placeRemarks]
    refine List.pairwise_append.2 ⟨pairwise_inBuckets hfunction h hstrict path,
      List.pairwise_flatMap.2 ⟨?_, ?_⟩, ?_⟩
    · rintro ⟨name, inner⟩ hinner
      obtain ⟨_, _, shape', hinner', hoccurs, hsmaller, _⟩ :=
        exists_site_of_mem_nested hfunction h hinner
      exact ih _ (hsize ▸ hsmaller) (hoccurs.isOrderly hfunction) hinner' _ rfl
    · -- the sites of different nested classes do not overlap
      have hapart := (separated_of_describe hfunction h analysis.nested_mem_buckets).apart
      apply (List.pairwise_map.1 hapart).imp_of_mem
      rintro ⟨name, inner⟩ ⟨name', inner'⟩ ha hb hapart x hx y hy heq
      obtain ⟨s, hs, hfrom, hto⟩ := range_of_nested hfunction h hsorted ha hx
      obtain ⟨t, ht, hfrom', hto'⟩ := range_of_nested hfunction h hsorted hb hy
      rw [heq] at hfrom hto
      rcases hapart s hs t ht with hbefore | hafter
      · exact absurd (hto.trans_le (hbefore.trans hfrom')) (lt_irrefl _)
      · exact absurd (hto'.trans_le (hafter.trans hfrom)) (lt_irrefl _)
    · intro x hx y hy heq
      obtain ⟨_, hmem, holder, hholder, remark, hremark, rfl⟩ := ClassAnalysis.mem_inBuckets.1 hx
      obtain ⟨bucket, hbucket, rfl⟩ := List.mem_map.1 hmem
      obtain ⟨⟨name, inner⟩, hinner, hy⟩ := List.mem_flatMap.1 hy
      obtain ⟨s, hs, hrange⟩ := range_of_nested hfunction h hsorted hinner hy
      rw [← heq] at hrange
      exact absurd hrange
        (not_in_nested hfunction h hsorted hbucket hholder hremark hinner hs)

/-- In a class with remarks attached, the attachments of one remark are compatible, and all are of the
given remarks. -/
theorem pairwise_attached (hfunction : shape.function.isOrderly = true)
    (h : describe moduleName className site shape = .ok analysis)
    (hstrict : remarks.Pairwise (·.start < ·.start)) :
    (analysis.attach remarks).attached.Pairwise Attached.Compatible ∧
      ∀ x ∈ (analysis.attach remarks).attached, x.remark ∈ remarks := by
  have hsorted := hstrict.imp fun {_ _} hlt ↦ hlt.le
  have hown := ClassAnalysis.ownRemarks_eq hsorted (start_of_describe h) (remarks_of_describe h)
  rw [ClassAnalysis.attach_eq hsorted, ClassAnalysis.attached,
    ClassAnalysis.attachedWithin_withRemarks, ClassAnalysis.facts_withRemarks, hown]
  constructor
  · refine List.pairwise_append.2 ⟨?_, pairwise_attachedWithin hfunction h hstrict [], ?_⟩
    · rw [List.pairwise_map]
      apply (hstrict.filter _).imp
      intro a b hlt heq
      exact absurd (congrArg Remark.start heq) hlt.ne
    · -- remarks on the outermost class stand before its function, the others in it
      intro x hx y hy heq
      obtain ⟨remark, hremark, rfl⟩ := List.mem_map.1 hx
      have hlt := of_decide_eq_true (List.mem_filter.1 hremark).2
      have hrange := range_of_mem_attachedWithin hfunction h hsorted [] hy
      rw [← heq] at hrange
      exact absurd hlt hrange.2.1.not_gt
  · intro x hx
    rcases List.mem_append.1 hx with hx | hx
    · obtain ⟨remark, hremark, rfl⟩ := List.mem_map.1 hx
      exact (List.mem_filter.1 hremark).1
    · exact (range_of_mem_attachedWithin hfunction h hsorted [] hx).1

end Described

/-! ## Counting the attachments of one remark -/

def isConstants : Option Aspect → Bool
  | some (.fixed (.facet _ .constants)) => true
  | _ => false

theorem isConstants_ne {a b : Option Aspect} (h : ConstantsAndMethods a b) :
    isConstants a ≠ isConstants b := by
  obtain ⟨side, ⟨rfl, rfl⟩ | ⟨rfl, rfl⟩⟩ := h
  · simp [isConstants]
  · simp [isConstants]

/-- Attachments that are all to constants, or all to other entries, are of different remarks. -/
theorem length_filter_le {xs : List Attached} (hcompatible : xs.Pairwise Attached.Compatible)
    {remarks : List Remark} (hmem : ∀ x ∈ xs, x.remark ∈ remarks) (constants : Bool) :
    (xs.filter fun x ↦ isConstants x.aspect? == constants).length ≤ remarks.length := by
  have hnodup : ((xs.filter fun x ↦ isConstants x.aspect? == constants).map Attached.remark).Nodup := by
    apply List.pairwise_map.2
    apply (hcompatible.filter _).imp_of_mem
    intro a b ha hb hab heq
    have haspect := eq_of_beq (List.mem_filter.1 ha).2
    have haspect' := eq_of_beq (List.mem_filter.1 hb).2
    exact isConstants_ne (hab heq).2 (haspect.trans haspect'.symm)
  have hsubset : (xs.filter fun x ↦ isConstants x.aspect? == constants).map Attached.remark ⊆
      remarks := by
    intro remark hremark
    obtain ⟨x, hx, rfl⟩ := List.mem_map.1 hremark
    exact hmem x (List.mem_filter.1 hx).1
  have hle := (List.subperm_of_subset hnodup hsubset).length_le
  rwa [List.length_map] at hle

/-- There are at most twice as many attachments as remarks. -/
theorem length_le_of_compatible {xs : List Attached} (hcompatible : xs.Pairwise Attached.Compatible)
    {remarks : List Remark} (hmem : ∀ x ∈ xs, x.remark ∈ remarks) :
    xs.length ≤ 2 * remarks.length := by
  have hconstants := length_filter_le hcompatible hmem true
  have hothers := length_filter_le hcompatible hmem false
  have hsplit := List.length_eq_countP_add_countP (fun x : Attached ↦ isConstants x.aspect?) (l := xs)
  simp only [List.countP_eq_length_filter] at hsplit
  simp only [beq_true, beq_false] at hconstants hothers
  simp only [Bool.not_eq_true, Bool.decide_eq_false] at hsplit
  omega

/-- Each remark is attached twice at most. -/
theorem length_filter_remark_le {xs : List Attached} (hcompatible : xs.Pairwise Attached.Compatible)
    (remark : Remark) : (xs.filter fun x ↦ x.remark = remark).length ≤ 2 := by
  have hmem : ∀ x ∈ xs.filter fun x ↦ x.remark = remark, x.remark ∈ [remark] :=
    fun x hx ↦ List.mem_singleton.2 (of_decide_eq_true (List.mem_filter.1 hx).2)
  exact length_le_of_compatible (hcompatible.filter _) hmem

/-! ## Scripts -/

section Scripts

open JavaScript (Script)

/-- In the class of a function, each entry has remarks that it directly follows among the entries of its
bucket, and entries of different buckets that share a remark are declared in one literal. -/
structure FollowsRemarks (function : Node) (analysis : ClassAnalysis) : Prop where
  preceded : ∀ bucket ∈ analysis.buckets, ∀ holder ∈ bucket.2,
    PrecededByRemarks function bucket.1 holder
  shared : ∀ a ∈ analysis.buckets, ∀ b ∈ analysis.buckets, a.1 ≠ b.1 → ∀ holder ∈ a.2, ∀ other ∈ b.2,
    ∀ remark ∈ holder.remarks, remark ∈ other.remarks → DeclaredTogether function holder other

/-- How the given remarks are attached in the class of a function: as they should in each class at any
depth, no remark more than twice, and one that is attached twice to a constant and to a method of one
side of one class. -/
structure ObeysNeighbourRule (remarks : List Remark) (function : Node) (analysis : ClassAnalysis) :
    Prop where
  follows : ∀ found, analysis.Contains found → ∃ inner, Node.Occurs inner function ∧
    found.facts.start = some inner.start ∧ FollowsRemarks inner found
  collected : ∀ x ∈ analysis.attached, x.remark ∈ remarks
  compatible : analysis.attached.Pairwise Attached.Compatible
  twice : ∀ remark, (analysis.attached.filter fun x ↦ x.remark = remark).length ≤ 2
  count : analysis.remarkCount ≤ 2 * remarks.length

/-- Placing remarks in a described class attaches them as they should be in the class itself; the
classes nested in it are described on their own. -/
theorem followsRemarks {moduleName className : Text} {site : Option Site} {shape : ClassShape}
    {analysis : ClassAnalysis} {remarks : List Remark}
    (hfunction : shape.function.isOrderly = true)
    (h : describe moduleName className site shape = .ok analysis)
    (hsorted : remarks.Pairwise (·.start ≤ ·.start)) (own : List Remark) :
    FollowsRemarks shape.function ((analysis.placeRemarks remarks).withRemarks own) := by
  constructor
  case preceded =>
    intro bucket hbucket holder hholder
    rw [ClassAnalysis.buckets_withRemarks, ClassAnalysis.buckets_placeRemarks] at hbucket
    obtain ⟨⟨aspect?, holders⟩, hholders, rfl⟩ := List.mem_map.1 hbucket
    exact precededByRemarks hfunction h hsorted hholders hholder
  case shared =>
    intro a ha b hb hne holder hholder other hother remark hremark hremark'
    rw [ClassAnalysis.buckets_withRemarks, ClassAnalysis.buckets_placeRemarks] at ha hb
    obtain ⟨first, hfirst, rfl⟩ := List.mem_map.1 ha
    obtain ⟨second, hsecond, rfl⟩ := List.mem_map.1 hb
    have hshared := bucket_eq_of_shared hfunction h hsorted hfirst hsecond hholder hother hremark
      hremark'
    exact (hshared.resolve_left hne).2

/-- In every script that is analyzed, each remark is attached to entries that it directly precedes among
the entries of their buckets, and at most twice. -/
theorem analyzeScript_obeysNeighbourRule {settings : Settings} {moduleName className : Text}
    {source : List Char} {analysis : ClassAnalysis}
    (h : analyzeScript settings moduleName className source = .ok analysis) :
    ∃ script shape, Script.read source = .ok script ∧ findClass script.statements = .ok shape ∧
      ObeysNeighbourRule (Remark.collect [settings.marker] script) shape.function analysis := by
  obtain ⟨script, shape, described, hscript, hshape, hdescribed, rfl⟩ := analyzeScript_eq_ok h
  have hstrict := Remark.pairwise_collect [settings.marker] hscript
  have hsorted := hstrict.imp fun {_ _} hlt ↦ hlt.le
  have hfunction := isOrderly_of_findClass hshape
  obtain ⟨hcompatible, hcollected⟩ := pairwise_attached hfunction hdescribed hstrict
  refine ⟨script, shape, hscript, hshape, ?_, hcollected, hcompatible,
    length_filter_remark_le hcompatible, ?_⟩
  · intro found hfound
    rw [ClassAnalysis.attach_eq hsorted] at hfound
    obtain ⟨inner, _, hinner, rfl⟩ := ClassAnalysis.exists_of_contains_placeRemarks hfound
    obtain ⟨_, _, shape', hdescribed', hoccurs⟩ := describes_of_contains hdescribed hinner
    refine ⟨shape'.function, hoccurs, ?_, ?_⟩
    · rw [ClassAnalysis.facts_withRemarks, ClassAnalysis.facts_placeRemarks]
      exact start_of_describe hdescribed'
    · exact followsRemarks (hoccurs.isOrderly hfunction) hdescribed' hsorted _
  · rw [← ClassAnalysis.length_attached]
    exact length_le_of_compatible hcompatible hcollected

/-- A constant and a method in one literal, with one remark before both. -/
def sharedRemarkSource : List Char :=
  "function (I) { I.know({ /*@ a*/ A: null, m: function () {} }); }".toList

set_option maxRecDepth 100000 in
/-- One remark is attached twice. -/
theorem remarkCount_sharedRemarkSource :
    ∃ script analysis, Script.read sharedRemarkSource = .ok script ∧
      (Remark.collect [Settings.default.marker] script).length = 1 ∧
      analyzeScript .default "m" "C" sharedRemarkSource = .ok analysis ∧
      analysis.remarkCount = 2 := by
  have hcounts : (Script.read sharedRemarkSource).toOption.map
        (fun script ↦ (Remark.collect [Settings.default.marker] script).length) = some 1 ∧
      (analyzeScript .default "m" "C" sharedRemarkSource).toOption.map
        ClassAnalysis.remarkCount = some 2 := by
    decide +kernel
  obtain ⟨script, hscript, hcollected⟩ := exists_ok_of_toOption hcounts.1
  obtain ⟨analysis, hanalysis, hcount⟩ := exists_ok_of_toOption hcounts.2
  exact ⟨script, analysis, hscript, hcollected, hanalysis, hcount⟩

set_option maxRecDepth 100000 in
/-- The constant and the method are declared by two members of one `know` literal. -/
theorem analyzeScript_sharedRemarkSource :
    ∃ analysis, analyzeScript .default "m" "C" sharedRemarkSource = .ok analysis ∧
      analysis.remarkCount = 2 ∧
      ∃ script shape, Script.read sharedRemarkSource = .ok script ∧
        findClass script.statements = .ok shape ∧
        ObeysNeighbourRule (Remark.collect [Settings.default.marker] script) shape.function
          analysis := by
  have hcount : (analyzeScript .default "m" "C" sharedRemarkSource).toOption.map
      ClassAnalysis.remarkCount = some 2 := by
    decide +kernel
  obtain ⟨analysis, hanalysis, hcount⟩ := exists_ok_of_toOption hcount
  exact ⟨analysis, hanalysis, hcount, analyzeScript_obeysNeighbourRule hanalysis⟩

end Scripts

end ClassScript
