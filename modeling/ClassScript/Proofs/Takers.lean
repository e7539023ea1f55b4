import ClassScript.Proofs.Placement
import ClassScript.Proofs.Sorting
import Mathlib.Data.List.Perm.Subperm

/-!
# Which entry takes a remark

A remark looks for the first entry that it does not come after, in the order in which the entries start
and among entries that start together in the order in which they are given. That entry takes the remark
if the remark stands in its literal and before it; otherwise nobody does. This is said of each remark by
itself, whatever the sites, also of sites that overlap or whose ends are out of order. Merging remarks
that are in order with the entries of a bucket gives each entry what it takes in this sense, behind the
remarks that it has.
-/

namespace ClassScript

namespace Attachment

def sited (sites : List (Option Site)) : List (Nat × Site) :=
  sites.zipIdx.filterMap fun entry ↦ entry.1.map fun site ↦ (entry.2, site)

/-- An entry starts before another, or with it and is given before it. -/
def Earlier (a b : Nat × Site) : Prop :=
  a.2.start < b.2.start ∨ a.2.start = b.2.start ∧ a.1 < b.1

instance (a b : Nat × Site) : Decidable (Earlier a b) :=
  inferInstanceAs (Decidable (a.2.start < b.2.start ∨ a.2.start = b.2.start ∧ a.1 < b.1))

/-- The entry with an index takes a remark: it is the first entry that the remark does not come after,
and the remark stands between the start of its literal and its own start. -/
def Takes (sites : List (Option Site)) (remark : Remark) (index : Nat) : Prop :=
  ∃ site ∈ sites[index]?.join, remark.start < site.reach ∧
    (∀ other ∈ sited sites, Earlier other (index, site) → other.2.reach ≤ remark.start) ∧
    site.inside ≤ remark.start ∧ remark.start < site.start

instance (sites : List (Option Site)) (remark : Remark) (index : Nat) :
    Decidable (Takes sites remark index) :=
  inferInstanceAs (Decidable (∃ site ∈ sites[index]?.join, _))

theorem mem_sited {sites : List (Option Site)} {index : Nat} {site : Site} :
    (index, site) ∈ sited sites ↔ sites[index]? = some (some site) := by
  rw [sited, List.mem_filterMap]
  constructor
  · rintro ⟨⟨site?, index'⟩, hentry, heq⟩
    obtain ⟨site', rfl, heq⟩ := Option.map_eq_some_iff.1 heq
    cases heq
    exact List.mem_zipIdx_iff_getElem?.1 hentry
  · intro hsite
    exact ⟨(some site, index), List.mem_zipIdx_iff_getElem?.2 hsite, rfl⟩

theorem pairwise_sited (sites : List (Option Site)) :
    (sited sites).Pairwise fun a b ↦ a.1 < b.1 := by
  have hindices : sites.zipIdx.Pairwise fun a b ↦ a.2 < b.2 := by
    apply List.pairwise_map.1
    rw [List.zipIdx_map_snd]
    exact List.pairwise_lt_range'
  refine hindices.filterMap _ ?_
  intro a b hab entry hentry entry' hentry'
  obtain ⟨_, _, rfl⟩ := Option.map_eq_some_iff.1 hentry
  obtain ⟨_, _, rfl⟩ := Option.map_eq_some_iff.1 hentry'
  exact hab

/-- The merge goes through the entries from the earlier to the later. -/
theorem pairwise_earlier_ordered (sites : List (Option Site)) :
    (ordered sites).Pairwise Earlier :=
  pairwise_mergeSort_stable (fun entry : Nat × Site ↦ entry.2.start) (fun _ _ ↦ decide_eq_true_iff)
    (pairwise_sited sites)

theorem mem_ordered {sites : List (Option Site)} {entry : Nat × Site} :
    entry ∈ ordered sites ↔ entry ∈ sited sites :=
  List.mem_mergeSort

theorem Earlier.asymm {a b : Nat × Site} (h : Earlier a b) : ¬Earlier b a := by
  rcases h with hlt | ⟨heq, hlt⟩
  · rintro (hgt | ⟨heq, _⟩)
    · exact hlt.asymm hgt
    · exact hlt.ne' heq
  · rintro (hgt | ⟨_, hgt⟩)
    · exact hgt.ne' heq
    · exact hlt.asymm hgt

/-- In a list that goes from the earlier to the later, what is found first has nothing earlier that could
be found. -/
theorem find?_eq_some_iff_earliest {entries : List (Nat × Site)} (h : entries.Pairwise Earlier)
    {p : Nat × Site → Bool} {entry : Nat × Site} :
    entries.find? p = some entry ↔
      entry ∈ entries ∧ p entry = true ∧
        ∀ other ∈ entries, Earlier other entry → p other = false := by
  constructor
  · intro hfound
    obtain ⟨hp, before, after, rfl, hbefore⟩ := List.find?_eq_some_iff_append.1 hfound
    refine ⟨List.mem_of_find?_eq_some hfound, hp, ?_⟩
    intro other hother hearlier
    rcases List.mem_append.1 hother with hbefore' | hafter
    · simpa using hbefore other hbefore'
    · have hlater := (List.pairwise_cons.1 (List.pairwise_append.1 h).2.1).1
      rcases List.mem_cons.1 hafter with rfl | hafter
      · exact absurd hearlier hearlier.asymm
      · exact absurd (hlater other hafter) hearlier.asymm
  · rintro ⟨hmem, hp, hothers⟩
    obtain ⟨before, after, rfl⟩ := List.append_of_mem hmem
    refine List.find?_eq_some_iff_append.2 ⟨hp, before, after, rfl, ?_⟩
    intro other hother
    have hearlier := (List.pairwise_append.1 h).2.2 other hother entry List.mem_cons_self
    simpa using hothers other (List.mem_append_left _ hother) hearlier

/-- The merge lets an entry have a remark just when the entry takes it. -/
theorem taker_ordered_eq_some_iff {sites : List (Option Site)} {remark : Remark} {index : Nat} :
    taker (ordered sites) remark = some index ↔ Takes sites remark index := by
  rw [taker, Option.bind_eq_some_iff]
  constructor
  · rintro ⟨⟨found, site⟩, hfound, htakes⟩
    obtain ⟨⟨hinside, hstart⟩, heq⟩ := Option.ite_none_right_eq_some.1 htakes
    cases heq
    obtain ⟨hmem, hreach, hothers⟩ :=
      (find?_eq_some_iff_earliest (pairwise_earlier_ordered sites)).1 hfound
    refine ⟨site, ?_, of_decide_eq_true hreach, ?_, hinside, hstart⟩
    · rw [mem_sited.1 (mem_ordered.1 hmem)]
      rfl
    · intro other hother hearlier
      exact not_lt.1 (of_decide_eq_false (hothers other (mem_ordered.2 hother) hearlier))
  · rintro ⟨site, hsite, hreach, hothers, hinside, hstart⟩
    have hmem : (index, site) ∈ ordered sites :=
      mem_ordered.2 (mem_sited.2 (Option.join_eq_some_iff.1 hsite))
    refine ⟨(index, site), ?_, if_pos ⟨hinside, hstart⟩⟩
    apply (find?_eq_some_iff_earliest (pairwise_earlier_ordered sites)).2
    refine ⟨hmem, decide_eq_true hreach, ?_⟩
    intro other hother hearlier
    exact decide_eq_false (not_lt.2 (hothers other (mem_ordered.1 hother) hearlier))

/-- No two entries take the same remark. -/
theorem Takes.unique {sites : List (Option Site)} {remark : Remark} {i j : Nat}
    (hi : Takes sites remark i) (hj : Takes sites remark j) : i = j :=
  Option.some.inj
    ((taker_ordered_eq_some_iff.2 hi).symm.trans (taker_ordered_eq_some_iff.2 hj))

/-! ## Buckets of entries -/

theorem zipWith_range_map {α β γ : Type} (f : α → β → γ) (g : Nat → β) (xs : List α) :
    xs.zipWith f ((List.range xs.length).map g) = xs.mapIdx fun index x ↦ f x (g index) := by
  apply List.ext_getElem
  · simp
  · intro index _ _
    simp

/-- What different indices get of some remarks, each remark going to one index at most, is part of the
remarks. -/
theorem flatMap_filter_subperm (taker? : Remark → Option Nat) {indices : List Nat}
    (hindices : indices.Nodup) (remarks : List Remark) :
    (indices.flatMap fun index ↦ remarks.filter fun remark ↦ taker? remark = some index).Subperm
      remarks := by
  induction indices generalizing remarks with
  | nil => exact List.nil_subperm
  | cons index rest ih =>
    obtain ⟨hnew, hrest⟩ := List.nodup_cons.1 hindices
    let others := remarks.filter fun remark ↦ !decide (taker? remark = some index)
    have hothers : (rest.flatMap fun later ↦ remarks.filter fun remark ↦ taker? remark = some later) =
        rest.flatMap fun later ↦ others.filter fun remark ↦ taker? remark = some later := by
      apply List.flatMap_congr
      intro later hlater
      rw [List.filter_filter]
      apply List.filter_congr
      intro remark _
      have hne : later ≠ index := fun heq ↦ hnew (heq ▸ hlater)
      by_cases h : taker? remark = some later
      · simp [h, hne]
      · simp [h]
    rw [List.flatMap_cons, hothers]
    exact ((List.subperm_append_left _).2 (ih hrest others)).trans
      (List.filter_append_perm _ remarks).subperm

/-- Remarks are placed as if each of them were alone. -/
structure PlacedOneByOne (remarks : List Remark) : Prop where
  /-- An entry gets the remarks that it takes. -/
  taken : ∀ sites, place remarks sites =
    (List.range sites.length).map fun index ↦ remarks.filter fun remark ↦ Takes sites remark index
  /-- The declarations of a bucket keep what they have and get what they take. -/
  bucket : ∀ bucket : Bucket, placeInBucket remarks bucket =
    bucket.mapIdx fun index entry ↦
      (entry.1, { entry.2 with
        remarks := entry.2.remarks ++ remarks.filter fun remark ↦
          Takes (bucket.map fun entry ↦ some entry.2.site) remark index })
  /-- So do the classes nested in a class, of which some may have no site. -/
  nested : ∀ analysis : ClassAnalysis, (analysis.placeRemarks remarks).nested =
    analysis.nested.mapIdx fun index entry ↦
      (entry.1, (entry.2.placeRemarks remarks).withRemarks
        (entry.2.facts.remarks ++ remarks.filter fun remark ↦
          Takes (analysis.nested.map fun entry ↦ entry.2.facts.site) remark index))
  /-- A remark is taken by one entry at most, and no remark is placed twice. -/
  once : ∀ sites, (∀ remark i j, Takes sites remark i → Takes sites remark j → i = j) ∧
    (place remarks sites).flatten.Subperm remarks

section Placed

variable {remarks : List Remark} (hsorted : remarks.Pairwise (·.start ≤ ·.start))

include hsorted

/-- Each entry gets the remarks that it takes, in their order. -/
theorem place_eq_takes (sites : List (Option Site)) :
    place remarks sites =
      (List.range sites.length).map fun index ↦
        remarks.filter fun remark ↦ Takes sites remark index := by
  rw [place_eq hsorted]
  simp only [taker_ordered_eq_some_iff]

/-- No remark is given to two entries of a bucket. -/
theorem flatten_place_subperm (sites : List (Option Site)) :
    (place remarks sites).flatten.Subperm remarks := by
  rw [place_eq hsorted, ← List.flatMap_def]
  exact flatMap_filter_subperm (taker (ordered sites)) List.nodup_range remarks

/-- Merging remarks that are in order with the entries of a bucket, whatever their sites, adds to each
entry the remarks that it takes. -/
theorem place_placedOneByOne : PlacedOneByOne remarks where
  taken := place_eq_takes hsorted
  bucket bucket := by
    rw [placeInBucket, place_eq_takes hsorted, List.length_map]
    exact zipWith_range_map _ _ bucket
  nested analysis := by
    rw [ClassAnalysis.nested_placeRemarks, place_eq_takes hsorted, List.length_map]
    exact zipWith_range_map _ _ analysis.nested
  once sites := ⟨fun _ _ _ ↦ Takes.unique, flatten_place_subperm hsorted sites⟩

end Placed

/-- Sites that start together, overlap, or have their ends out of order, and an entry without a site. -/
def tangledSites : List (Option Site) :=
  [some ⟨⟨1, 0⟩, ⟨1, 10⟩, ⟨1, 20⟩⟩, none, some ⟨⟨1, 0⟩, ⟨1, 10⟩, ⟨1, 4⟩⟩,
    some ⟨⟨1, 8⟩, ⟨1, 5⟩, ⟨1, 6⟩⟩, some ⟨⟨1, 12⟩, ⟨1, 30⟩, ⟨1, 40⟩⟩]

def scatteredRemarks : List Remark :=
  [⟨"a", ⟨1, 2⟩⟩, ⟨"b", ⟨1, 9⟩⟩, ⟨"c", ⟨1, 9⟩⟩, ⟨"d", ⟨1, 15⟩⟩, ⟨"e", ⟨1, 20⟩⟩]

/-- The first remark is lost to the entry whose literal starts later, the fourth stands inside the
first entry. -/
theorem place_tangledSites :
    scatteredRemarks.Pairwise (·.start ≤ ·.start) ∧ PlacedOneByOne scatteredRemarks ∧
      place scatteredRemarks tangledSites =
        [[⟨"b", ⟨1, 9⟩⟩, ⟨"c", ⟨1, 9⟩⟩], [], [], [], [⟨"e", ⟨1, 20⟩⟩]] := by
  have hsorted : scatteredRemarks.Pairwise (·.start ≤ ·.start) := by
    decide
  have hplaced := place_placedOneByOne hsorted
  refine ⟨hsorted, hplaced, ?_⟩
  rw [hplaced.taken]
  decide +kernel

end Attachment

end ClassScript
