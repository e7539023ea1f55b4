import ClassScript.Proofs.FieldOrder
import Mathlib.Data.List.Nodup

/-!
# The fields of a class

Where a class is, what it declares and what is nested in it all go into one object, some of it written
over what was there before. No two of the fields that a class can have share a name, whatever its
keywords and members are called, so each is found in the object as it was set.
-/

namespace ClassScript

open Json (Alike alike_object_iff)

theorem FixedAspect.mem_all (aspect : FixedAspect) : aspect ∈ all := by
  cases aspect with
  | facet side facet => cases side <;> cases facet <;> decide
  | flags => decide
  | package => decide

inductive ClassField where
  | superclass | inside | start | stop | remarks | nested
  | side (own : Side)
  | aspect (own : FixedAspect)
deriving DecidableEq

namespace ClassField

def name : ClassField → Text
  | superclass => "super"
  | inside => "inside"
  | start => "from"
  | stop => "to"
  | remarks => "remarks"
  | nested => "nested"
  | side own => own.name
  | aspect own => own.name

/-- The field in which an aspect is shown. -/
def ofAspect : Aspect → ClassField
  | .fixed own => aspect own
  | .generic own _ => side own

/-- The fields that do not belong to what a class declares. -/
def plain : List ClassField := [superclass, inside, start, stop, remarks]

def all : List ClassField :=
  plain ++ [nested, side .instanceSide, side .classSide] ++ FixedAspect.all.map aspect

theorem mem_all (field : ClassField) : field ∈ all := by
  cases field with
  | aspect own => exact List.mem_append_right _ (List.mem_map_of_mem own.mem_all)
  | side own => cases own <;> decide
  | _ => decide

/-- No two fields have the same name. -/
theorem name_injective : Function.Injective name := by
  have hnodup : (all.map name).Nodup := by decide +kernel
  intro a b h
  exact List.inj_on_of_nodup_map hnodup a.mem_all b.mem_all h

theorem ofAspect_eq_aspect_iff {shown : Aspect} {own : FixedAspect} :
    ofAspect shown = aspect own ↔ shown = .fixed own := by
  cases shown <;> simp [ofAspect]

/-- The field of a side holds all keywords of that side. -/
theorem ofAspect_eq_side_iff {shown : Aspect} {own : Side} :
    ofAspect shown = side own ↔ ∃ keyword, shown = .generic own keyword := by
  cases shown <;> simp [ofAspect]

end ClassField

namespace ClassFacts

variable (facts : ClassFacts)

def plainFields : Table Text Json :=
  let place : Table Text Json := match facts.site with
    | some site => site.fields
    | none => []
  let named := Table.put (Text.ofString "super") (Json.ofOption .text facts.superclass) place
  let started := match facts.start with
    | some start => Table.put (Text.ofString "from") start.toJson named
    | none => named
  started ++ Remark.fields facts.remarks

theorem get?_plainFields_of_forall_ne {name : Text}
    (h : ∀ field ∈ ClassField.plain, field.name ≠ name) :
    Table.get? name facts.plainFields = none := by
  have hsuper : Text.ofString "super" ≠ name := h .superclass (by decide)
  have hinside : Text.ofString "inside" ≠ name := h .inside (by decide)
  have hstart : Text.ofString "from" ≠ name := h .start (by decide)
  have hstop : Text.ofString "to" ≠ name := h .stop (by decide)
  have hremarks : Text.ofString "remarks" ≠ name := h .remarks (by decide)
  obtain ⟨_, _, _, start, site, _, remarks⟩ := facts
  cases site <;> cases start <;> cases remarks <;>
    simp [plainFields, Site.fields, Remark.fields, Table.get?, Table.get?_append, Table.get?_put, *]

theorem get?_plainFields_of_not_mem {field : ClassField} (h : field ∉ ClassField.plain) :
    Table.get? field.name facts.plainFields = none := by
  apply get?_plainFields_of_forall_ne
  intro field' hplain hname
  exact h (ClassField.name_injective hname ▸ hplain)

def shown (entry : Aspect × Bucket) : Json :=
  match entry.1 with
  | .fixed _ => entry.2.toJson
  | .generic side _ => .wrapped (facts.keywords side)

/-- The aspects put their fields behind the plain ones, one after the other. -/
theorem fields_eq_foldl_put :
    facts.fields = facts.aspects.foldl
      (fun fields entry ↦ Table.put (ClassField.ofAspect entry.1).name (facts.shown entry) fields)
      facts.plainFields := by
  rw [fields, plainFields]
  congr 1
  funext fields ⟨aspect, bucket⟩
  cases aspect <;> rfl

variable {facts}

/-- No aspect hides what another field holds. -/
theorem get?_fields {field : ClassField} {v : Json}
    (h : ∀ entry ∈ facts.aspects, ClassField.ofAspect entry.1 = field → facts.shown entry = v) :
    Table.get? field.name facts.fields =
      if ∃ entry ∈ facts.aspects, ClassField.ofAspect entry.1 = field then some v
      else Table.get? field.name facts.plainFields := by
  simp only [← ClassField.name_injective.eq_iff] at h ⊢
  rw [fields_eq_foldl_put]
  exact Table.get?_foldl_put h facts.plainFields

theorem get?_fields_of_forall_ne {name : Text} (h : ∀ field : ClassField, field.name ≠ name) :
    Table.get? name facts.fields = none := by
  have habsent : ¬∃ entry ∈ facts.aspects, (ClassField.ofAspect entry.1).name = name :=
    fun ⟨_, _, hname⟩ ↦ h _ hname
  rw [fields_eq_foldl_put,
    Table.get?_foldl_put (v := .null) fun entry hentry hname ↦ absurd ⟨entry, hentry, hname⟩ habsent,
    if_neg habsent, get?_plainFields_of_forall_ne facts fun field _ ↦ h field]

theorem get?_fields_of_absent {field : ClassField}
    (h : ¬∃ entry ∈ facts.aspects, ClassField.ofAspect entry.1 = field) :
    Table.get? field.name facts.fields = Table.get? field.name facts.plainFields := by
  rw [get?_fields (v := .null) fun entry hentry hfield ↦ absurd ⟨entry, hentry, hfield⟩ h, if_neg h]

theorem get?_fields_of_undeclared {field : ClassField}
    (h : field ∈ ClassField.nested :: ClassField.plain) :
    Table.get? field.name facts.fields = Table.get? field.name facts.plainFields := by
  apply get?_fields_of_absent
  rintro ⟨⟨aspect, bucket⟩, -, rfl⟩
  cases aspect <;> simp [ClassField.ofAspect, ClassField.plain] at h

/-- The field of a fixed aspect shows its bucket. -/
theorem get?_fields_fixed (hkeys : facts.aspects.keys.Nodup) (aspect : FixedAspect) :
    Table.get? (ClassField.aspect aspect).name facts.fields =
      (Table.get? (.fixed aspect) facts.aspects).map Bucket.toJson := by
  cases hbucket : Table.get? (.fixed aspect) facts.aspects with
  | none =>
    rw [get?_fields_of_absent, get?_plainFields_of_not_mem facts (by simp [ClassField.plain]),
      Option.map_none]
    rintro ⟨⟨aspect', bucket⟩, hentry, hfield⟩
    obtain rfl := ClassField.ofAspect_eq_aspect_iff.1 hfield
    rw [(Table.mem_iff_get? hkeys).1 hentry] at hbucket
    cases hbucket
  | some bucket =>
    have hshown : ∀ entry ∈ facts.aspects, ClassField.ofAspect entry.1 = .aspect aspect →
        facts.shown entry = bucket.toJson := by
      rintro ⟨aspect', bucket'⟩ hentry hfield
      obtain rfl := ClassField.ofAspect_eq_aspect_iff.1 hfield
      rw [(Table.mem_iff_get? hkeys).1 hentry] at hbucket
      rw [← Option.some.inj hbucket]
      rfl
    rw [get?_fields hshown, if_pos ⟨_, (Table.mem_iff_get? hkeys).2 hbucket, rfl⟩, Option.map_some]

/-- The field of a side shows the keywords of that side, and it is left out if there are none. -/
theorem get?_fields_side (side : Side) :
    Table.get? (ClassField.side side).name facts.fields = Json.wrapped? (facts.keywords side) := by
  have hshown : ∀ entry ∈ facts.aspects, ClassField.ofAspect entry.1 = .side side →
      facts.shown entry = .wrapped (facts.keywords side) := by
    rintro ⟨aspect, bucket⟩ - hfield
    obtain ⟨keyword, rfl⟩ := ClassField.ofAspect_eq_side_iff.1 hfield
    rfl
  have hkeywords : facts.keywords side = [] ↔
      ¬∃ entry ∈ facts.aspects, ClassField.ofAspect entry.1 = .side side := by
    rw [keywords, List.filterMap_eq_nil_iff]
    push Not
    apply forall₂_congr
    rintro ⟨aspect, bucket⟩ -
    cases aspect <;> simp [ClassField.ofAspect]
  rw [get?_fields hshown, get?_plainFields_of_not_mem facts (by simp [ClassField.plain]), Json.wrapped?]
  simp only [List.isEmpty_iff, hkeywords, ite_not]

/-- A keyword of a side is shown with the declarations of its aspect. -/
theorem get?_keywords (side : Side) (keyword : Text) :
    Table.get? keyword (facts.keywords side) =
      (Table.get? (.generic side keyword) facts.aspects).map Bucket.toJson := by
  rw [keywords]
  induction facts.aspects with
  | nil => rfl
  | cons entry rest ih =>
    obtain ⟨aspect, bucket⟩ := entry
    cases aspect with
    | fixed aspect => rw [List.filterMap_cons_none rfl, ih, Table.get?, if_neg (by simp)]
    | generic side' keyword' =>
      by_cases hside : side' = side
      · by_cases hkeyword : keyword' = keyword
        · simp [Table.get?, hside, hkeyword]
        · simpa [Table.get?, hside, hkeyword] using ih
      · simpa [Table.get?, hside] using ih

end ClassFacts

namespace ClassAnalysis

theorem nestedFields_eq_map (nested : List (Text × ClassAnalysis)) :
    nestedFields nested = nested.map fun entry ↦ (entry.1, entry.2.toJson) := by
  induction nested with
  | nil => rw [nestedFields, List.map_nil]
  | cons entry rest ih => rw [nestedFields, ih, List.map_cons]

variable (analysis : ClassAnalysis)

def nestedJson? : Option Json := Json.wrapped? (nestedFields analysis.nested)

def fields : Table Text Json :=
  analysis.facts.fields ++ analysis.nestedJson?.toList.map (ClassField.nested.name, ·)

theorem toJson_eq_object : analysis.toJson = .object analysis.fields := by
  obtain ⟨facts, nested⟩ := analysis
  cases nested with
  | nil => rw [toJson]; rfl
  | cons entry rest => rw [toJson]; rfl

def field? : ClassField → Option Json
  | .superclass => some (.ofOption .text analysis.facts.superclass)
  | .inside => (analysis.facts.site.map Site.inside).map Position.toJson
  | .start => (analysis.facts.start.or (analysis.facts.site.map Site.start)).map Position.toJson
  | .stop => (analysis.facts.site.map Site.stop).map Position.toJson
  | .remarks => Remark.list? analysis.facts.remarks
  | .nested => analysis.nestedJson?
  | .side side => Json.wrapped? (analysis.facts.keywords side)
  | .aspect aspect => (analysis.bucket? (.fixed aspect)).map Bucket.toJson

variable {analysis}

theorem get?_fields_eq (name : Text) :
    Table.get? name analysis.fields =
      (Table.get? name analysis.facts.fields).or
        (if ClassField.nested.name = name then analysis.nestedJson? else none) := by
  rw [fields, Table.get?_append]
  congr 1
  cases analysis.nestedJson? with
  | none => simp [Table.get?]
  | some nested => rfl

theorem get?_fields_of_forall_ne {name : Text} (h : ∀ field : ClassField, field.name ≠ name) :
    Table.get? name analysis.fields = none := by
  rw [get?_fields_eq, ClassFacts.get?_fields_of_forall_ne h, if_neg (h .nested), Option.or_none]

theorem get?_plainFields {field : ClassField} (h : field ∈ ClassField.plain) :
    Table.get? field.name analysis.facts.plainFields = analysis.field? field := by
  obtain ⟨⟨_, _, superclass, start, site, _, remarks⟩, _⟩ := analysis
  simp only [ClassField.plain, List.mem_cons, List.not_mem_nil, or_false] at h
  rcases h with rfl | rfl | rfl | rfl | rfl <;> cases site <;> cases start <;> cases remarks <;> rfl

/-- The nested classes are shown in one field and touch no other. -/
theorem get?_fields_of_ne_nested {field : ClassField} (h : field ≠ .nested) :
    Table.get? field.name analysis.fields = Table.get? field.name analysis.facts.fields := by
  rw [get?_fields_eq, if_neg (ClassField.name_injective.ne h.symm), Option.or_none]

/-- Every field of a class with different aspects can be read off from the analysis. -/
theorem get?_fields (hkeys : analysis.facts.aspects.keys.Nodup) (field : ClassField) :
    Table.get? field.name analysis.fields = analysis.field? field := by
  cases field with
  | nested =>
    rw [get?_fields_eq, ClassFacts.get?_fields_of_undeclared (by decide),
      ClassFacts.get?_plainFields_of_not_mem _ (by decide), Option.none_or, if_pos rfl]
    rfl
  | side side =>
    rw [get?_fields_of_ne_nested (by simp), ClassFacts.get?_fields_side]
    rfl
  | aspect aspect =>
    rw [get?_fields_of_ne_nested (by simp), ClassFacts.get?_fields_fixed hkeys]
    rfl
  | _ =>
    rw [get?_fields_of_ne_nested (by simp), ClassFacts.get?_fields_of_undeclared (by decide),
      get?_plainFields (by decide)]

/-- Classes are alike when they show the like in each field. -/
theorem alike_toJson_iff {other : ClassAnalysis} (hkeys : analysis.facts.aspects.keys.Nodup)
    (hkeys' : other.facts.aspects.keys.Nodup) :
    Alike analysis.toJson other.toJson ↔
      ∀ field, Option.Rel Alike (analysis.field? field) (other.field? field) := by
  rw [toJson_eq_object, toJson_eq_object, alike_object_iff]
  constructor
  · intro h field
    rw [← get?_fields hkeys, ← get?_fields hkeys']
    exact h field.name
  · intro h name
    by_cases hname : ∃ field : ClassField, field.name = name
    · obtain ⟨field, rfl⟩ := hname
      rw [get?_fields hkeys, get?_fields hkeys']
      exact h field
    · rw [get?_fields_of_forall_ne (not_exists.1 hname), get?_fields_of_forall_ne (not_exists.1 hname)]
      exact .none

end ClassAnalysis

end ClassScript
