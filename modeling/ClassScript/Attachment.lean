import ClassScript.Analysis

/-!
# Attaching remarks

A remark documents the entry that it stands before: it lies between the start of the entry's object
literal, or the end of the entry before, and the start of the entry. Each bucket of each class is
merged on its own with all remarks, both in the order of the source. Remarks before the function of
the outermost class document that class.
-/

namespace ClassScript

namespace Attachment

/-- Merges remarks with entries, both in order, and gives each placed remark with its entry. An entry
is passed once a remark comes after it, a remark once an entry takes it or starts after it. -/
def merge {ι : Type} : List Remark → List (ι × Site) → List (ι × Remark)
  | [], _ => []
  | _, [] => []
  | remark :: remarks, (entry, site) :: entries =>
    if remark.start < site.inside then merge remarks ((entry, site) :: entries)
    else if remark.start < site.start then
      (entry, remark) :: merge remarks ((entry, site) :: entries)
    else if remark.start < site.stop then merge remarks ((entry, site) :: entries)
    else merge (remark :: remarks) entries
termination_by remarks entries => remarks.length + entries.length

/-- The entries that have a site, in the order of their starts. -/
def ordered (sites : List (Option Site)) : List (Nat × Site) :=
  let sited := sites.zipIdx.filterMap fun entry ↦ entry.1.map fun site ↦ (entry.2, site)
  sited.mergeSort fun a b ↦ decide (a.2.start ≤ b.2.start)

/-- The remarks that the entry with the given index gets. -/
def placedAt (placed : List (Nat × Remark)) (index : Nat) : List Remark :=
  placed.filterMap fun p ↦ if p.1 = index then some p.2 else none

/-- What each of the entries with the given sites gets of the remarks. -/
def place (remarks : List Remark) (sites : List (Option Site)) : List (List Remark) :=
  let placed := merge remarks (ordered sites)
  (List.range sites.length).map (placedAt placed)

/-- Adds remarks to the declarations of a bucket. -/
def placeInBucket (remarks : List Remark) (bucket : Bucket) : Bucket :=
  let placed := place remarks (bucket.map fun entry ↦ some entry.2.site)
  bucket.zipWith (fun entry more ↦
    (entry.1, { entry.2 with remarks := entry.2.remarks ++ more })) placed

def sorted (remarks : List Remark) : List Remark :=
  remarks.mergeSort fun a b ↦ decide (a.start ≤ b.start)

end Attachment

namespace ClassAnalysis

open Attachment

def addRemarks (more : List Remark) : ClassAnalysis → ClassAnalysis :=
  mapFacts fun facts ↦ { facts with remarks := facts.remarks ++ more }

mutual

/-- Places remarks on the declarations of a class and on all that is nested in it. -/
def placeRemarks (remarks : List Remark) : ClassAnalysis → ClassAnalysis
  | mk facts nested =>
    let aspects := facts.aspects.map fun entry ↦ (entry.1, placeInBucket remarks entry.2)
    let inner := placeNested remarks nested
    let placed := place remarks (inner.map fun entry ↦ entry.2.facts.site)
    mk { facts with aspects }
      (inner.zipWith (fun entry more ↦ (entry.1, entry.2.addRemarks more)) placed)

def placeNested (remarks : List Remark) : List (Text × ClassAnalysis) → List (Text × ClassAnalysis)
  | [] => []
  | (name, inner) :: rest => (name, placeRemarks remarks inner) :: placeNested remarks rest

end

/-- The remarks before the function of a class, up to the first that is not. -/
def classRemarks (remarks : List Remark) (analysis : ClassAnalysis) : List Remark :=
  match analysis.facts.start with
  | some start => remarks.takeWhile fun remark ↦ decide (remark.start < start)
  | none => []

/-- Attaches the remarks of a script to its class. Remarks on the class itself replace those it has, if
there are any; all others are added. -/
def attach (remarks : List Remark) (analysis : ClassAnalysis) : ClassAnalysis :=
  if remarks.isEmpty then analysis
  else
    let own := analysis.classRemarks remarks
    let documented :=
      if own.isEmpty then analysis else analysis.mapFacts fun facts ↦ { facts with remarks := own }
    documented.placeRemarks (sorted remarks)

end ClassAnalysis

end ClassScript
