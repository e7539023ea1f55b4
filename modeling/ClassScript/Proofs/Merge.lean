import ClassScript.Attachment
import ClassScript.Proofs.Position
import Mathlib.Data.List.Basic
import Mathlib.Order.MinMax

/-!
# Merging, one remark at a time

The merge goes through remarks and entries with two cursors. When the remarks are in order, what
becomes of one of them does not depend on the others: the entries that it comes after are passed, and
the first entry left takes it if it stands in the entry's literal and before the entry.
-/

namespace ClassScript

def Site.reach (site : Site) : Position := max site.inside (max site.start site.stop)

namespace Attachment

variable {ι : Type}

/-- The entry that takes a remark: the first one that the remark does not come after, if the remark
stands between the start of the entry's literal and the entry. -/
def taker (entries : List (ι × Site)) (remark : Remark) : Option ι :=
  (entries.find? fun entry ↦ decide (remark.start < entry.2.reach)).bind fun entry ↦
    if entry.2.inside ≤ remark.start ∧ remark.start < entry.2.start then some entry.1 else none

@[simp]
theorem taker_nil (remark : Remark) : taker ([] : List (ι × Site)) remark = none := rfl

/-- A remark before the end of the first entry is taken by it or by none. -/
theorem taker_cons_of_lt {remark : Remark} {entry : ι} {site : Site} (entries : List (ι × Site))
    (h : remark.start < site.reach) :
    taker ((entry, site) :: entries) remark =
      if site.inside ≤ remark.start ∧ remark.start < site.start then some entry else none := by
  simp only [taker, List.find?_cons, decide_eq_true h, Option.bind_some]

/-- A remark behind the first entry is left to the others. -/
theorem taker_cons_of_le {remark : Remark} {entry : ι} {site : Site} (entries : List (ι × Site))
    (h : site.reach ≤ remark.start) :
    taker ((entry, site) :: entries) remark = taker entries remark := by
  simp only [taker, List.find?_cons, decide_eq_false h.not_gt]

/-- Only one of the given entries takes a remark. -/
theorem mem_of_taker {entries : List (ι × Site)} {remark : Remark} {entry : ι}
    (h : taker entries remark = some entry) : entry ∈ entries.map Prod.fst := by
  obtain ⟨found, hfound, hentry⟩ := Option.bind_eq_some_iff.1 h
  have hmem := List.mem_of_find?_eq_some hfound
  split at hentry
  · rw [← Option.some.inj hentry]
    exact List.mem_map_of_mem hmem
  · simp at hentry

/-- Remarks in order are merged as if each were alone. -/
theorem merge_eq_filterMap {remarks : List Remark} (entries : List (ι × Site))
    (hsorted : remarks.Pairwise (·.start ≤ ·.start)) :
    merge remarks entries =
      remarks.filterMap fun remark ↦ (taker entries remark).map (·, remark) := by
  fun_induction merge remarks entries with
  | case1 => rfl
  | case2 remarks => simp
  | case3 remark remarks entry site entries hinside ih =>
    rw [ih hsorted.of_cons, List.filterMap_cons, taker_cons_of_lt, if_neg]
    · rfl
    · exact fun h ↦ h.1.not_gt hinside
    · exact lt_max_of_lt_left hinside
  | case4 remark remarks entry site entries hinside hstart ih =>
    rw [ih hsorted.of_cons, List.filterMap_cons, taker_cons_of_lt, if_pos]
    · rfl
    · exact ⟨not_lt.1 hinside, hstart⟩
    · exact lt_max_of_lt_right (lt_max_of_lt_left hstart)
  | case5 remark remarks entry site entries _ hstart hstop ih =>
    rw [ih hsorted.of_cons, List.filterMap_cons, taker_cons_of_lt, if_neg]
    · rfl
    · exact fun h ↦ hstart h.2
    · exact lt_max_of_lt_right (lt_max_of_lt_right hstop)
  | case6 remark remarks entry site entries hinside hstart hstop ih =>
    -- the entry ends before this remark, and so before all that follow
    have hreach : site.reach ≤ remark.start :=
      max_le (not_lt.1 hinside) (max_le (not_lt.1 hstart) (not_lt.1 hstop))
    rw [ih hsorted]
    apply List.filterMap_congr
    intro other hother
    have hle : remark.start ≤ other.start := by
      rcases List.mem_cons.1 hother with rfl | hmem
      · exact le_refl _
      · exact List.rel_of_pairwise_cons hsorted hmem
    rw [taker_cons_of_le entries (hreach.trans hle)]

/-- The merge, which looks at each remark and each entry once, gives each entry the remarks that it
takes. -/
theorem placedAt_merge {remarks : List Remark} (entries : List (Nat × Site))
    (hsorted : remarks.Pairwise (·.start ≤ ·.start)) (index : Nat) :
    placedAt (merge remarks entries) index =
      remarks.filter fun remark ↦ taker entries remark = some index := by
  rw [merge_eq_filterMap entries hsorted, placedAt, List.filterMap_filterMap,
    ← List.filterMap_eq_filter]
  congr 1
  funext remark
  cases htaker : taker entries remark with
  | none => simp [htaker, Option.guard]
  | some entry =>
    by_cases h : entry = index
    · simp [htaker, h, Option.guard]
    · simp [htaker, h, Option.guard]

/-- Each entry gets the remarks that it takes. -/
theorem place_eq {remarks : List Remark} (hsorted : remarks.Pairwise (·.start ≤ ·.start))
    (sites : List (Option Site)) :
    place remarks sites =
      (List.range sites.length).map fun index ↦
        remarks.filter fun remark ↦ taker (ordered sites) remark = some index := by
  rw [place]
  apply List.map_congr_left
  intro index _
  exact placedAt_merge (ordered sites) hsorted index

theorem length_place (remarks : List Remark) (sites : List (Option Site)) :
    (place remarks sites).length = sites.length := by
  simp [place]

end Attachment

end ClassScript
