import ClassScript.Analysis.Tree
import ClassScript.Proofs.Options
import ClassScript.Proofs.Table
import Mathlib.Data.List.Forall2

/-!
# Values up to the order of fields

The order in which the fields of an object were set carries no meaning: objects are alike when under
each name they have values that are alike, or none. Positions, remarks and declarations are told apart
by their values; collections, by what they hold under each name.
-/

namespace ClassScript

namespace Json

/-- Values that differ in nothing but the order of fields. -/
inductive Alike : Json → Json → Prop where
  | null : Alike null null
  | bool (b : Bool) : Alike (bool b) (bool b)
  | int (n : Int) : Alike (int n) (int n)
  | text (t : Text) : Alike (text t) (text t)
  | list {items others : List Json} (h : List.Forall₂ Alike items others) :
    Alike (list items) (list others)
  | object {fields others : List (Text × Json)}
    (h : ∀ name, Option.Rel Alike (Table.get? name fields) (Table.get? name others)) :
    Alike (object fields) (object others)

section Alike

variable {fields others : List (Text × Json)}

theorem alike_int_iff {n m : Int} : Alike (int n) (int m) ↔ n = m :=
  ⟨fun | .int _ => rfl, fun h ↦ h ▸ .int n⟩

theorem alike_text_iff {t u : Text} : Alike (text t) (text u) ↔ t = u :=
  ⟨fun | .text _ => rfl, fun h ↦ h ▸ .text t⟩

theorem alike_bool_iff {b c : Bool} : Alike (bool b) (bool c) ↔ b = c :=
  ⟨fun | .bool _ => rfl, fun h ↦ h ▸ .bool b⟩

theorem alike_ofOption_text_iff {t? u? : Option Text} :
    Alike (ofOption text t?) (ofOption text u?) ↔ t? = u? := by
  cases t? with
  | none => cases u? with
    | none => exact ⟨fun _ ↦ rfl, fun _ ↦ .null⟩
    | some u => exact ⟨nofun, nofun⟩
  | some t => cases u? with
    | none => exact ⟨nofun, nofun⟩
    | some u => exact alike_text_iff.trans (Option.some_inj).symm

theorem alike_list_iff {items others : List Json} :
    Alike (list items) (list others) ↔ List.Forall₂ Alike items others :=
  ⟨fun | .list h => h, .list⟩

/-- Objects are alike if they have the same fields, in any order, with values that are alike. -/
theorem alike_object_iff :
    Alike (object fields) (object others) ↔
      ∀ name, Option.Rel Alike (Table.get? name fields) (Table.get? name others) :=
  ⟨fun | .object h => h, .object⟩

theorem Alike.refl : ∀ value : Json, Alike value value
  | .null => .null
  | .bool b => .bool b
  | .int n => .int n
  | .text t => .text t
  | .list items => .list (refl_items items)
  | .object fields => .object (refl_fields fields)
where
  refl_items : ∀ items : List Json, List.Forall₂ Alike items items
    | [] => .nil
    | item :: rest => .cons (Alike.refl item) (refl_items rest)
  refl_fields : ∀ (fields : List (Text × Json)) (name : Text),
      Option.Rel Alike (Table.get? name fields) (Table.get? name fields)
    | [], _ => .none
    | (name', value) :: rest, name => by
      rw [Table.get?]
      split
      · exact .some (Alike.refl value)
      · exact refl_fields rest name

/-- Collections are alike when they hold the same under each name. -/
theorem alike_wrapped_iff :
    Alike (wrapped fields) (wrapped others) ↔
      ∀ name, Option.Rel Alike (Table.get? name fields) (Table.get? name others) := by
  rw [wrapped, wrapped, alike_object_iff]
  constructor
  · intro h
    exact alike_object_iff.1 (rel_some_some_iff.1 (h (Text.ofString "_")))
  · intro h name
    simp only [Table.get?]
    split
    · exact .some (.object h)
    · exact .none

/-- A collection that is left out when it is empty. -/
def wrapped? (fields : List (Text × Json)) : Option Json :=
  if fields.isEmpty then none else some (wrapped fields)

/-- An object that is left out when it is empty still tells which fields there are. -/
theorem rel_wrapped?_iff :
    Option.Rel Alike (wrapped? fields) (wrapped? others) ↔
      ∀ name, Option.Rel Alike (Table.get? name fields) (Table.get? name others) := by
  cases fields with
  | nil => cases others with
    | nil => exact ⟨fun _ _ ↦ .none, fun _ ↦ .none⟩
    | cons other _ =>
      refine iff_of_false not_rel_none_some fun h ↦ ?_
      simpa [Table.get?] using h other.1
  | cons field _ => cases others with
    | nil =>
      refine iff_of_false not_rel_some_none fun h ↦ ?_
      simpa [Table.get?] using h field.1
    | cons => exact rel_some_some_iff.trans alike_wrapped_iff

end Alike

end Json

open Json (Alike alike_object_iff)

theorem Position.alike_toJson_iff {p q : Position} : Alike p.toJson q.toJson ↔ p = q := by
  constructor
  · intro h
    have hfields := alike_object_iff.1 h
    have hline : p.line = q.line :=
      Json.alike_int_iff.1 (rel_some_some_iff.1 (hfields (Text.ofString "line")))
    have hcolumn : p.column = q.column :=
      Json.alike_int_iff.1 (rel_some_some_iff.1 (hfields (Text.ofString "column")))
    cases p
    cases q
    exact congrArg₂ Position.mk hline hcolumn
  · rintro rfl
    exact .refl _

namespace Remark

theorem alike_toJson_iff {r s : Remark} : Alike r.toJson s.toJson ↔ r = s := by
  constructor
  · intro h
    have hfields := alike_object_iff.1 h
    have htext : r.text = s.text :=
      Json.alike_text_iff.1 (rel_some_some_iff.1 (hfields (Text.ofString "text")))
    have hstart : r.start = s.start :=
      Position.alike_toJson_iff.1 (rel_some_some_iff.1 (hfields (Text.ofString "from")))
    cases r
    cases s
    exact congrArg₂ Remark.mk htext hstart
  · rintro rfl
    exact .refl _

def list? (remarks : List Remark) : Option Json :=
  if remarks.isEmpty then none else some (.list (remarks.map toJson))

/-- A list that is left out when it is empty still tells the remarks. -/
theorem rel_list?_iff {remarks others : List Remark} :
    Option.Rel Alike (list? remarks) (list? others) ↔ remarks = others := by
  cases remarks with
  | nil => cases others with
    | nil => exact ⟨fun _ ↦ rfl, fun _ ↦ .none⟩
    | cons => exact ⟨nofun, nofun⟩
  | cons remark rest => cases others with
    | nil => exact ⟨nofun, nofun⟩
    | cons other rest' =>
      calc Option.Rel Alike (list? (remark :: rest)) (list? (other :: rest'))
          ↔ Alike (.list ((remark :: rest).map toJson)) (.list ((other :: rest').map toJson)) :=
            rel_some_some_iff
        _ ↔ List.Forall₂ (fun r s ↦ Alike (toJson r) (toJson s)) (remark :: rest)
              (other :: rest') := by
            rw [Json.alike_list_iff, List.forall₂_map_left_iff, List.forall₂_map_right_iff]
        _ ↔ remark :: rest = other :: rest' := by
            simp only [alike_toJson_iff, List.forall₂_eq_eq_eq]

end Remark

namespace Declaration

def fields (declaration : Declaration) : List (Text × Json) :=
  declaration.site.fields ++ Remark.fields declaration.remarks ++
    match declaration.value with
    | some value => [("value", .bool value)]
    | none => []

theorem toJson_eq_object (declaration : Declaration) :
    declaration.toJson = .object declaration.fields :=
  rfl

theorem get?_remarks_fields (declaration : Declaration) :
    Table.get? (Text.ofString "remarks") declaration.fields = Remark.list? declaration.remarks := by
  obtain ⟨site, value, remarks⟩ := declaration
  cases remarks <;> cases value <;> rfl

theorem get?_value_fields (declaration : Declaration) :
    Table.get? (Text.ofString "value") declaration.fields = declaration.value.map Json.bool := by
  obtain ⟨site, value, remarks⟩ := declaration
  cases remarks <;> cases value <;> rfl

theorem alike_toJson_iff {d e : Declaration} : Alike d.toJson e.toJson ↔ d = e := by
  constructor
  · intro h
    rw [toJson_eq_object, toJson_eq_object, alike_object_iff] at h
    have hinside : d.site.inside = e.site.inside :=
      Position.alike_toJson_iff.1 (rel_some_some_iff.1 (h (Text.ofString "inside")))
    have hstart : d.site.start = e.site.start :=
      Position.alike_toJson_iff.1 (rel_some_some_iff.1 (h (Text.ofString "from")))
    have hstop : d.site.stop = e.site.stop :=
      Position.alike_toJson_iff.1 (rel_some_some_iff.1 (h (Text.ofString "to")))
    have hremarks := h (Text.ofString "remarks")
    rw [get?_remarks_fields, get?_remarks_fields, Remark.rel_list?_iff] at hremarks
    have hvalue := h (Text.ofString "value")
    rw [get?_value_fields, get?_value_fields, rel_map_iff_eq Json.alike_bool_iff] at hvalue
    obtain ⟨⟨_, _, _⟩, _, _⟩ := d
    obtain ⟨⟨_, _, _⟩, _, _⟩ := e
    subst hinside hstart hstop hremarks hvalue
    rfl
  · rintro rfl
    exact .refl _

end Declaration

/-- Buckets are told apart by the declarations they hold under each name. -/
theorem Bucket.alike_toJson_iff {bucket other : Bucket} :
    Alike (Bucket.toJson bucket) (Bucket.toJson other) ↔
      ∀ name, Table.get? name bucket = Table.get? name other := by
  rw [Bucket.toJson, Bucket.toJson, Json.alike_wrapped_iff]
  apply forall_congr'
  intro name
  rw [Table.get?_map, Table.get?_map, rel_map_iff_eq Declaration.alike_toJson_iff]

end ClassScript
