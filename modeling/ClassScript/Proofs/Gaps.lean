import ClassScript.Analyzer
import ClassScript.Proofs.Placement
import ClassScript.Proofs.Remarks
import ClassScript.Proofs.Scan
import ClassScript.Proofs.Sites

/-!
# The gap rule

The entries of a bucket, in the order in which they start, leave gaps in the source. The gap before an
entry opens with the entry's literal or with the end of the entry before, whichever comes later, and
closes where the entry starts. Each entry gets the remarks that start in the gap before it, in their
order and with their texts. The outermost class gets the remarks that start before its function.
-/

namespace ClassScript

/-- Where the gap before an entry opens, given the site of the entry before. -/
def Site.gapStart (site : Site) : (previous : Option Site) → Position
  | none => site.inside
  | some previous => max site.inside previous.stop

def gapRemarks (remarks : List Remark) (previous : Option Site) (site : Site) : List Remark :=
  remarks.filter fun remark ↦
    site.gapStart previous ≤ remark.start ∧ remark.start < site.start

/-- Entries that are given in order have the remarks in the gaps before them. -/
def FillsGaps (remarks : List Remark) : Option Site → List (Site × List Remark) → Prop
  | _, [] => True
  | previous, (site, own) :: rest =>
    own = gapRemarks remarks previous site ∧ FillsGaps remarks (some site) rest

/-- The entries of a bucket have sites with different starts, and in their order they have the remarks
in the gaps before them. -/
def GapRule (remarks : List Remark) (holders : List Holder) : Prop :=
  ∃ ordered : List (Site × List Remark),
    (ordered.map fun entry ↦ (some entry.1, entry.2)).Perm
      (holders.map fun holder ↦ (holder.site, holder.remarks)) ∧
    ordered.Pairwise (·.1.start < ·.1.start) ∧ FillsGaps remarks none ordered

/-- The remarks of a script are attached to the class of a function by the gap rule: the class has the
remarks before its function, and in each class at any depth, each bucket obeys the rule. -/
structure ObeysGapRule (remarks : List Remark) (function : JavaScript.Node)
    (analysis : ClassAnalysis) : Prop where
  sorted : remarks.Pairwise (·.start < ·.start)
  own : analysis.facts.remarks = remarks.filter fun remark ↦ remark.start < function.start
  gaps : ∀ found, analysis.Contains found → ∀ bucket ∈ found.buckets, GapRule remarks bucket.2

theorem Site.Proper.reach_eq {site : Site} (h : site.Proper) : site.reach = site.stop := by
  rw [Site.reach, max_eq_right h.start_lt.le, max_eq_right (h.inside_lt.trans h.start_lt).le]

namespace Attachment

/-- The gap before a site starts inside its literal and behind the site before. -/
theorem gapStart_le {site : Site} {previous : Option Site} {position : Position} :
    site.gapStart previous ≤ position ↔
      site.inside ≤ position ∧ ∀ p ∈ previous, p.stop ≤ position := by
  cases previous with
  | none => simp [Site.gapStart]
  | some previous => simp [Site.gapStart]

section InOrder

variable {entries : List (Nat × Site)} {index : Nat} {site : Site} {remark : Remark}

/-- The first entry takes what stands in its literal and before it. -/
theorem taker_cons_eq_first (hproper : site.Proper) (hnew : index ∉ entries.map Prod.fst) :
    taker ((index, site) :: entries) remark = some index ↔
      site.inside ≤ remark.start ∧ remark.start < site.start := by
  by_cases hreach : remark.start < site.reach
  · rw [taker_cons_of_lt entries hreach]
    simp
  · have hle := not_lt.1 hreach
    rw [taker_cons_of_le entries hle]
    constructor
    · exact fun htaker ↦ absurd (mem_of_taker htaker) hnew
    · intro hgap
      rw [hproper.reach_eq] at hle
      exact absurd (hgap.2.trans hproper.start_lt) hle.not_gt

/-- A later entry takes what comes after the first one and what it takes of the rest. -/
theorem taker_cons_eq_later {later : Nat} (hproper : site.Proper) (hne : index ≠ later) :
    taker ((index, site) :: entries) remark = some later ↔
      site.stop ≤ remark.start ∧ taker entries remark = some later := by
  rw [← hproper.reach_eq]
  by_cases hreach : remark.start < site.reach
  · rw [taker_cons_of_lt entries hreach]
    simp [hreach.not_ge, hne]
  · rw [taker_cons_of_le entries (not_lt.1 hreach)]
    simp [not_lt.1 hreach]

/-- What a later entry takes stands behind the first one, so that the first one can be skipped. -/
theorem filter_taker_later (remarks : List Remark) {previous : Option Site} {later : Nat}
    (hproper : site.Proper) (hprevious : ∀ p ∈ previous, p.stop ≤ site.start) (hne : index ≠ later) :
    (remarks.filter fun remark ↦ (∀ p ∈ previous, p.stop ≤ remark.start) ∧
        taker ((index, site) :: entries) remark = some later) =
      remarks.filter fun remark ↦ (∀ p ∈ some site, p.stop ≤ remark.start) ∧
        taker entries remark = some later := by
  apply List.filter_congr
  intro remark _
  rw [decide_eq_decide, taker_cons_eq_later hproper hne]
  constructor
  · rintro ⟨_, hstop, htaker⟩
    exact ⟨by simpa using hstop, htaker⟩
  · rintro ⟨hstop, htaker⟩
    have hstop : site.stop ≤ remark.start := hstop site rfl
    refine ⟨?_, hstop, htaker⟩
    intro p hp
    exact (hprevious p hp).trans (hproper.start_lt.le.trans hstop)

end InOrder

/-- What entries that lie one before the other take of the remarks fills the gaps before them. -/
theorem fillsGaps_taker (remarks : List Remark) (entries : List (Nat × Site)) (previous : Option Site)
    (hproper : ∀ entry ∈ entries, entry.2.Proper)
    (hbefore : entries.Pairwise fun a b ↦ a.2.stop ≤ b.2.start)
    (hnodup : (entries.map Prod.fst).Nodup)
    (hprevious : ∀ p ∈ previous, ∀ entry ∈ entries, p.stop ≤ entry.2.start) :
    FillsGaps remarks previous (entries.map fun entry ↦
      (entry.2, remarks.filter fun remark ↦
        (∀ p ∈ previous, p.stop ≤ remark.start) ∧ taker entries remark = some entry.1)) := by
  induction entries generalizing previous with
  | nil => trivial
  | cons first rest ih =>
    obtain ⟨index, site⟩ := first
    have hfirst : site.Proper := hproper _ List.mem_cons_self
    rw [List.map_cons, List.nodup_cons] at hnodup
    refine ⟨List.filter_congr ?_, ?_⟩
    · intro remark _
      rw [decide_eq_decide, taker_cons_eq_first hfirst hnodup.1, gapStart_le]
      exact ⟨fun h ↦ ⟨⟨h.2.1, h.1⟩, h.2.2⟩, fun h ↦ ⟨h.1.2, h.1.1, h.2⟩⟩
    · have hrest : ∀ p ∈ some site, ∀ entry ∈ rest, p.stop ≤ entry.2.start := by
        intro p hp entry hentry
        cases hp
        exact List.rel_of_pairwise_cons hbefore hentry
      have htail := ih (some site) (fun entry hentry ↦ hproper entry (List.mem_cons_of_mem _ hentry))
        hbefore.of_cons hnodup.2 hrest
      convert htail using 1
      apply List.map_congr_left
      intro entry hentry
      have hne : index ≠ entry.1 := fun heq ↦
        hnodup.1 (List.mem_map.2 ⟨entry, hentry, heq.symm⟩)
      rw [filter_taker_later remarks hfirst
        (fun p hp ↦ hprevious p hp _ List.mem_cons_self) hne]

/-! ## Sorting the entries of a bucket -/

/-- Bare entries with sites, told by the sites alone. -/
theorem exists_sites_of_separated {holders : List Holder} (h : Recognizer.Separated holders) :
    ∃ sites : List Site, holders.map Holder.site = sites.map some ∧
      (∀ site ∈ sites, site.Proper) ∧ sites.Pairwise Site.Apart := by
  refine ⟨holders.filterMap Holder.site, ?_, ?_, ?_⟩
  · rw [List.map_filterMap, ← List.filterMap_eq_map]
    apply List.filterMap_congr
    intro holder hholder
    obtain ⟨site, hsite, _⟩ := h.proper holder hholder
    simp [hsite]
  · intro site hsite
    obtain ⟨holder, hholder, heq⟩ := List.mem_filterMap.1 hsite
    obtain ⟨site', hsite', hproper⟩ := h.proper holder hholder
    rw [hsite'] at heq
    cases heq
    exact hproper
  · rw [List.pairwise_filterMap]
    apply h.apart.imp
    intro a b hab s hs t ht
    exact hab s hs t ht

theorem ordered_perm (sites : List Site) :
    (ordered (sites.map some)).Perm (sites.zipIdx.map Prod.swap) := by
  have hsited : (sites.map some).zipIdx.filterMap
      (fun entry ↦ entry.1.map fun site ↦ (entry.2, site)) = sites.zipIdx.map Prod.swap := by
    rw [List.zipIdx_map, List.filterMap_map, ← List.filterMap_eq_map]
    rfl
  rw [ordered, ← hsited]
  exact List.mergeSort_perm _ _

theorem pairwise_ordered (sites : List (Option Site)) :
    (ordered sites).Pairwise fun a b ↦ a.2.start ≤ b.2.start := by
  rw [ordered]
  refine (List.pairwise_mergeSort ?_ ?_ _).imp of_decide_eq_true
  · intro a b c hab hbc
    exact decide_eq_true ((of_decide_eq_true hab).trans (of_decide_eq_true hbc))
  · intro a b
    simpa using le_total a.2.start b.2.start

/-- Proper sites that do not overlap lie one before the other when they are sorted. -/
theorem ordered_before {sites : List Site} (hproper : ∀ site ∈ sites, site.Proper)
    (hapart : sites.Pairwise Site.Apart) :
    (ordered (sites.map some)).Pairwise fun a b ↦ a.2.stop ≤ b.2.start := by
  have hperm := ordered_perm sites
  have hsites : (sites.zipIdx.map Prod.swap).map Prod.snd = sites := by
    rw [List.map_map]
    exact List.zipIdx_map_fst 0 sites
  have hindexed : (sites.zipIdx.map Prod.swap).Pairwise fun a b ↦ a.2.Apart b.2 := by
    apply List.pairwise_map.1
    rw [hsites]
    exact hapart
  have hall : (ordered (sites.map some)).Pairwise fun a b ↦ a.2.Apart b.2 :=
    hperm.symm.pairwise hindexed fun {_ _} h ↦ h.symm
  apply ((pairwise_ordered _).and hall).imp_of_mem
  rintro a b _ hb ⟨hle, hab | hba⟩
  · exact hab
  · have hmem : b.2 ∈ sites := by
      rw [← hsites]
      exact List.mem_map_of_mem (hperm.mem_iff.1 hb)
    exact absurd ((hproper _ hmem).start_lt.trans_le hba) hle.not_gt

theorem nodup_ordered (sites : List Site) :
    ((ordered (sites.map some)).map Prod.fst).Nodup := by
  rw [((ordered_perm sites).map Prod.fst).nodup_iff, List.map_map]
  have hindices : sites.zipIdx.map (Prod.fst ∘ Prod.swap) = List.range' 0 sites.length :=
    List.zipIdx_map_snd 0 sites
  rw [hindices]
  exact List.nodup_range'

theorem proper_of_mem_ordered {sites : List Site} (hproper : ∀ site ∈ sites, site.Proper) :
    ∀ entry ∈ ordered (sites.map some), entry.2.Proper := by
  intro entry hentry
  obtain ⟨indexed, hindexed, rfl⟩ := List.mem_map.1 ((ordered_perm sites).mem_iff.1 hentry)
  exact hproper _ (List.fst_mem_of_mem_zipIdx hindexed)

/-- What each entry of a bucket has after remarks in order have been placed. -/
theorem map_documented {remarks : List Remark} (hsorted : remarks.Pairwise (·.start ≤ ·.start))
    {holders : List Holder} (hbare : ∀ holder ∈ holders, holder.remarks = []) {sites : List Site}
    (hsites : holders.map Holder.site = sites.map some) :
    (documented remarks holders).map (fun holder ↦ (holder.site, holder.remarks)) =
      (sites.zipIdx.map Prod.swap).map fun entry ↦
        (some entry.2, remarks.filter fun remark ↦
          taker (ordered (sites.map some)) remark = some entry.1) := by
  have hlength : holders.length = sites.length := by
    simpa using congrArg List.length hsites
  apply List.ext_getElem
  · simp [length_documented, hlength]
  · intro index hindex hindex'
    have hholder : index < holders.length := by
      simpa [length_documented] using hindex
    have hsite : holders[index].site = some sites[index] := by
      have hget := congrArg (fun sites : List (Option Site) ↦ sites[index]?) hsites
      simpa [hholder, hlength ▸ hholder] using hget
    simp [documented, place_eq hsorted, hsites, Holder.document, hsite,
      hbare _ (List.getElem_mem hholder)]

/-- Placing remarks that are in order in a bucket obeys the gap rule. -/
theorem gapRule_documented {remarks : List Remark} (hsorted : remarks.Pairwise (·.start ≤ ·.start))
    {holders : List Holder} (h : Recognizer.Separated holders) :
    GapRule remarks (documented remarks holders) := by
  obtain ⟨sites, hsites, hproper, hapart⟩ := exists_sites_of_separated h
  have hbefore := ordered_before hproper hapart
  have hmem := proper_of_mem_ordered hproper
  have hfills := fillsGaps_taker remarks (ordered (sites.map some)) none hmem hbefore
    (nodup_ordered sites) (by simp)
  simp only [Option.mem_def, reduceCtorEq, false_implies, implies_true, true_and] at hfills
  refine ⟨_, ?_, ?_, hfills⟩
  · rw [map_documented hsorted h.bare hsites, List.map_map]
    exact (ordered_perm sites).map _
  · rw [List.pairwise_map]
    apply hbefore.imp_of_mem
    intro a b ha _ hab
    exact (hmem a ha).start_lt.trans_le hab

end Attachment

/-! ## Scripts -/

section Scripts

open JavaScript (Node Script)
open Recognizer (ClassShape findClass describe)

/-- A script is analyzed by describing its class and attaching its remarks. -/
theorem analyzeScript_eq_ok {settings : Settings} {moduleName className : Text} {source : List Char}
    {analysis : ClassAnalysis} (h : analyzeScript settings moduleName className source = .ok analysis) :
    ∃ script shape described, Script.read source = .ok script ∧
      findClass script.statements = .ok shape ∧
      describe moduleName className none shape = .ok described ∧
      analysis = described.attach (Remark.collect [settings.marker] script) := by
  unfold analyzeScript at h
  split at h
  · cases h
  · next script hscript =>
    rw [Recognizer.snd_recognize_fresh] at h
    cases hshape : findClass script.statements with
    | error cause =>
      rw [hshape] at h
      cases h
    | ok shape =>
      rw [hshape] at h
      cases hdescribed : describe moduleName className none shape with
      | error fault =>
        simp only [Except.mapError, bind, Except.bind, hdescribed] at h
        cases h
      | ok described =>
        simp only [Except.mapError, bind, Except.bind, hdescribed] at h
        exact ⟨script, shape, described, hscript, hshape, hdescribed, (Except.ok.inj h).symm⟩

/-- The function of a script's class is orderly. -/
theorem isOrderly_of_findClass {script : Script} {shape : ClassShape}
    (h : findClass script.statements = .ok shape) : shape.function.isOrderly = true := by
  obtain ⟨statement, hstatements, hshape⟩ := Recognizer.exists_of_findClass h
  have hmem : statement ∈ script.statements := by
    rw [hstatements]
    exact List.mem_singleton_self _
  have hchild := (List.mem_filter.1 ((List.dropWhile_sublist _).mem hmem)).1
  have siblings := JavaScript.Node.siblings_of_areOrderly script.orderly
  exact (Recognizer.occurs_of_statementShape? hshape).isOrderly (siblings.orderly statement hchild)

/-- In every script that is analyzed, all its remarks are attached by the gap rule. -/
theorem analyzeScript_obeysGapRule {settings : Settings} {moduleName className : Text}
    {source : List Char} {analysis : ClassAnalysis}
    (h : analyzeScript settings moduleName className source = .ok analysis) :
    ∃ script shape, Script.read source = .ok script ∧ findClass script.statements = .ok shape ∧
      ObeysGapRule (Remark.collect [settings.marker] script) shape.function analysis := by
  obtain ⟨script, shape, described, hscript, hshape, hdescribed, rfl⟩ := analyzeScript_eq_ok h
  have hstrict := Remark.pairwise_collect [settings.marker] hscript
  have hsorted := hstrict.imp fun {_ _} hlt ↦ hlt.le
  rw [ClassAnalysis.attach_eq hsorted]
  refine ⟨script, shape, hscript, hshape, hstrict, ?_, ?_⟩
  · rw [ClassAnalysis.facts_withRemarks]
    exact ClassAnalysis.ownRemarks_eq hsorted (Recognizer.start_of_describe hdescribed)
      (Recognizer.remarks_of_describe hdescribed)
  · intro found hfound bucket hbucket
    obtain ⟨inner, _, hinner, rfl⟩ := ClassAnalysis.exists_of_contains_placeRemarks hfound
    obtain ⟨_, _, shape', hdescribed', hoccurs⟩ :=
      Recognizer.describes_of_contains hdescribed hinner
    rw [ClassAnalysis.buckets_withRemarks, ClassAnalysis.buckets_placeRemarks] at hbucket
    obtain ⟨⟨aspect?, holders⟩, hholders, rfl⟩ := List.mem_map.1 hbucket
    have horderly := hoccurs.isOrderly (isOrderly_of_findClass hshape)
    exact Attachment.gapRule_documented hsorted
      (Recognizer.separated_of_describe horderly hdescribed' hholders)

/-- Two calls that feed one bucket, with a name declared in both, and a nested class. -/
def sharedBucketSource : List Char :=
  "/*@r*/ (function (I) { I.have({ /*@a*/ x: 1, y: 2 }); I.have({ /*@b*/ x: 3 });
    I.nest({ /*@c*/ D: function () {} }); })".toList

set_option maxRecDepth 100000 in
theorem analyzeScript_sharedBucketSource :
    ∃ analysis, analyzeScript .default "m" "C" sharedBucketSource = .ok analysis ∧
      ∃ script shape, Script.read sharedBucketSource = .ok script ∧
        findClass script.statements = .ok shape ∧
        ObeysGapRule (Remark.collect [Settings.default.marker] script) shape.function analysis := by
  have hok : (analyzeScript .default "m" "C" sharedBucketSource).toOption.map
      (fun analysis ↦ analysis.nested.length) = some 1 := by
    decide +kernel
  obtain ⟨analysis, hanalysis, _⟩ := exists_ok_of_toOption hok
  exact ⟨analysis, hanalysis, analyzeScript_obeysGapRule hanalysis⟩

end Scripts

end ClassScript
