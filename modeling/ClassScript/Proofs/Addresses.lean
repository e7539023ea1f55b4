import ClassScript.Proofs.Options
import ClassScript.Proofs.Placement

/-!
# Entries found by their addresses

A declaration or a nested class is found by the names of the classes around it, by its bucket and by its
own name. Placing remarks adds to the remarks of each entry what the entry gets, and that depends on
nothing but the names and sites in its bucket. In particular remarks that are there already are neither
looked at nor changed.
-/

namespace ClassScript

structure Address where
  /-- The names that lead from the outermost class to the class of the entry. -/
  path : List Text
  /-- The aspect of a declaration; none for a nested class. -/
  aspect? : Option Aspect
  name : Text

namespace Attachment

/-- What the entry of a bucket with the given name gets of the remarks. -/
def shareOf (remarks : List Remark) (holders : List Holder) (name : Text) : List Remark :=
  (place remarks (holders.map Holder.site))[holders.findIdx (·.name = name)]?.getD []

theorem map_name_documented (remarks : List Remark) (holders : List Holder) :
    (documented remarks holders).map Holder.name = holders.map Holder.name := by
  apply List.ext_getElem
  · simp [length_documented]
  · intro index _ _
    simp [documented, Holder.document]

theorem findIdx_name (holders : List Holder) (name : Text) :
    holders.findIdx (·.name = name) = (holders.map Holder.name).findIdx (· = name) := by
  rw [List.findIdx_map]
  rfl

/-- An entry that is found by its name has its share behind the remarks that it had. -/
theorem find?_documented (remarks : List Remark) (holders : List Holder) (name : Text) :
    (documented remarks holders).find? (·.name = name) =
      (holders.find? (·.name = name)).map (·.document (shareOf remarks holders name)) := by
  have hindex : (documented remarks holders).findIdx (·.name = name) =
      holders.findIdx (·.name = name) := by
    rw [findIdx_name, findIdx_name, map_name_documented]
  rw [List.find?_eq_getElem?_findIdx, List.find?_eq_getElem?_findIdx, hindex, shareOf, documented,
    List.getElem?_zipWith]
  generalize holders.findIdx (·.name = name) = index
  by_cases h : index < holders.length
  · have hplaced : index < (place remarks (holders.map Holder.site)).length := by
      rwa [length_place, List.length_map]
    rw [List.getElem?_eq_getElem h, List.getElem?_eq_getElem hplaced]
    rfl
  · rw [List.getElem?_eq_none (not_lt.1 h)]
    rfl

end Attachment

/-- Combining the values of a table with others one by one leaves the keys where they are. -/
theorem Table.rel_get?_zipWith {κ α β γ : Type} [DecidableEq κ] (f : α → β → γ) {t : Table κ α}
    {others : List β} (h : t.length = others.length) (k : κ) :
    Option.Rel (fun v w ↦ ∃ other, w = f v other) (get? k t)
      (get? k (t.zipWith (fun entry other ↦ (entry.1, f entry.2 other)) others)) := by
  induction t generalizing others with
  | nil => exact .none
  | cons entry rest ih =>
    cases others with
    | nil => simp at h
    | cons other others =>
      rw [List.zipWith_cons_cons, get?, get?]
      by_cases hk : entry.1 = k
      · rw [if_pos hk, if_pos hk]
        exact .some ⟨other, rfl⟩
      · rw [if_neg hk, if_neg hk]
        exact ih (Nat.succ.inj h)

namespace ClassAnalysis

open Attachment

def bucketAt? (aspect? : Option Aspect) : List Text → ClassAnalysis → Option (List Holder)
  | [], analysis => Table.get? aspect? analysis.buckets
  | name :: path, analysis => (Table.get? name analysis.nested).bind (bucketAt? aspect? path)

def remarksAt? (address : Address) (analysis : ClassAnalysis) : Option (List Remark) :=
  ((analysis.bucketAt? address.aspect? address.path).bind
    (List.find? (·.name = address.name))).map Holder.remarks

/-- What the entry at an address gets of the remarks. -/
def shareAt (remarks : List Remark) (address : Address) (analysis : ClassAnalysis) : List Remark :=
  ((analysis.bucketAt? address.aspect? address.path).map (shareOf remarks · address.name)).getD []

/-- Each bucket, at whatever depth, is documented on its own. -/
theorem bucketAt?_placeRemarks (remarks own : List Remark) (aspect? : Option Aspect)
    (path : List Text) (analysis : ClassAnalysis) :
    ((analysis.placeRemarks remarks).withRemarks own).bucketAt? aspect? path =
      (analysis.bucketAt? aspect? path).map (documented remarks) := by
  induction path generalizing analysis own with
  | nil =>
    rw [bucketAt?, bucketAt?, buckets_withRemarks, buckets_placeRemarks, Table.get?_map]
  | cons name path ih =>
    rw [bucketAt?, bucketAt?, nested_withRemarks, nested_placeRemarks]
    have hfound := Table.rel_get?_zipWith
      (fun (inner : ClassAnalysis) more ↦
        (inner.placeRemarks remarks).withRemarks (inner.facts.remarks ++ more))
      (show analysis.nested.length =
        (place remarks (analysis.nested.map fun entry ↦ entry.2.facts.site)).length by
          rw [length_place, List.length_map]) name
    revert hfound
    generalize Table.get? name analysis.nested = inner?
    generalize Table.get? name (List.zipWith _ _ _) = placed?
    intro hfound
    cases hfound with
    | none => rfl
    | some h =>
      obtain ⟨more, rfl⟩ := h
      exact ih _ _

/-- Every entry keeps its remarks and gets its share behind them, whatever becomes of the remarks on
the outermost class. -/
theorem remarksAt?_placeRemarks (remarks own : List Remark) (address : Address)
    (analysis : ClassAnalysis) :
    ((analysis.placeRemarks remarks).withRemarks own).remarksAt? address =
      (analysis.remarksAt? address).map (· ++ analysis.shareAt remarks address) := by
  rw [remarksAt?, bucketAt?_placeRemarks, remarksAt?, shareAt]
  cases analysis.bucketAt? address.aspect? address.path with
  | none => rfl
  | some holders =>
    simp only [Option.map_some, Option.bind_some, find?_documented, Option.map_map, Option.getD_some]
    rfl

/-- An entry keeps its remarks, and its share of the new ones comes behind them. -/
theorem remarksAt?_attach (remarks : List Remark) (address : Address) (analysis : ClassAnalysis) :
    (analysis.attach remarks).remarksAt? address =
      (analysis.remarksAt? address).map (· ++ analysis.shareAt (sorted remarks) address) := by
  rw [attach_eq_placeRemarks, remarksAt?_placeRemarks]

end ClassAnalysis

end ClassScript
