import ClassScript.Proofs.ClassFields
import ClassScript.Proofs.Gaps

/-!
# Analyses told apart by their JSON

The JSON of a class keeps all that is known of it but its name and the order in which things were put
in. Two classes have JSON that is alike just when they agree on their superclass, place and remarks, on
the declarations of each aspect, and on the classes nested in them. For that a class has to have a
start, which is where its site starts if it has one: the two are written into one field. All that
analysis gives is of that kind.
-/

namespace ClassScript

open Json (Alike)

/-- A class has a start, which is also that of its site if it has one. -/
def ClassFacts.Placed (facts : ClassFacts) : Prop :=
  ∃ start, facts.start = some start ∧ ∀ site ∈ facts.site, site.start = start

def Bucket.Agrees (bucket other : Bucket) : Prop :=
  ∀ name, Table.get? name bucket = Table.get? name other

/-- Classes with the same superclass, place and remarks, and in each aspect the same declarations. -/
structure ClassFacts.Agrees (facts other : ClassFacts) : Prop where
  superclass : facts.superclass = other.superclass
  start : facts.start = other.start
  site : facts.site = other.site
  remarks : facts.remarks = other.remarks
  aspects : ∀ aspect, Option.Rel Bucket.Agrees (Table.get? aspect facts.aspects)
    (Table.get? aspect other.aspects)

namespace ClassAnalysis

/-- Classes that agree in themselves and, under each name, in what is nested in them. -/
inductive Agrees : ClassAnalysis → ClassAnalysis → Prop where
  | mk {analysis other : ClassAnalysis} (facts : analysis.facts.Agrees other.facts)
    (nested : ∀ name, Option.Rel Agrees (Table.get? name analysis.nested)
      (Table.get? name other.nested)) : Agrees analysis other

variable {analysis other : ClassAnalysis}

theorem Agrees.refl (analysis : ClassAnalysis) : analysis.Agrees analysis := by
  induction analysis using nestedInduction with
  | step analysis ih =>
    refine .mk ⟨rfl, rfl, rfl, rfl, fun aspect ↦ rel_self fun _ _ _ ↦ rfl⟩ fun name ↦ rel_self ?_
    intro inner hinner
    exact ih _ (Table.mem_of_get? hinner)

theorem rel_field?_fixed_iff (aspect : FixedAspect) :
    Option.Rel Alike (analysis.field? (.aspect aspect)) (other.field? (.aspect aspect)) ↔
      Option.Rel Bucket.Agrees (Table.get? (.fixed aspect) analysis.facts.aspects)
        (Table.get? (.fixed aspect) other.facts.aspects) := by
  rw [field?, field?, rel_map_iff]
  simp only [Bucket.alike_toJson_iff]
  rfl

/-- The field of a side tells the bucket of each keyword. -/
theorem rel_field?_side_iff (side : Side) :
    Option.Rel Alike (analysis.field? (.side side)) (other.field? (.side side)) ↔
      ∀ keyword, Option.Rel Bucket.Agrees (Table.get? (.generic side keyword) analysis.facts.aspects)
        (Table.get? (.generic side keyword) other.facts.aspects) := by
  rw [field?, field?, Json.rel_wrapped?_iff]
  apply forall_congr'
  intro keyword
  rw [ClassFacts.get?_keywords, ClassFacts.get?_keywords, rel_map_iff]
  simp only [Bucket.alike_toJson_iff]
  rfl

theorem rel_field?_nested_iff :
    Option.Rel Alike (analysis.field? .nested) (other.field? .nested) ↔
      ∀ name, Option.Rel (fun inner inner' ↦ Alike inner.toJson inner'.toJson)
        (Table.get? name analysis.nested) (Table.get? name other.nested) := by
  rw [field?, field?, nestedJson?, nestedJson?, Json.rel_wrapped?_iff]
  apply forall_congr'
  intro name
  rw [nestedFields_eq_map, nestedFields_eq_map, Table.get?_map, Table.get?_map, rel_map_iff]

/-- The three fields for the place of a class tell its start and its site. -/
theorem place_eq_iff (h : analysis.facts.Placed) (h' : other.facts.Placed) :
    (∀ field ∈ [ClassField.inside, .start, .stop],
        Option.Rel Alike (analysis.field? field) (other.field? field)) ↔
      analysis.facts.start = other.facts.start ∧ analysis.facts.site = other.facts.site := by
  obtain ⟨start, hstart, hsite⟩ := h
  obtain ⟨start', hstart', hsite'⟩ := h'
  simp only [List.forall_mem_cons, List.not_mem_nil, IsEmpty.forall_iff, implies_true, and_true, field?,
    rel_map_iff_eq Position.alike_toJson_iff, hstart, hstart', Option.some_or, Option.some_inj]
  constructor
  · rintro ⟨hinside, rfl, hstop⟩
    refine ⟨rfl, ?_⟩
    cases hfirst : analysis.facts.site with
    | none =>
      rw [hfirst, Option.map_none, eq_comm, Option.map_eq_none_iff] at hinside
      exact hinside.symm
    | some site =>
      rw [hfirst, Option.map_some, eq_comm, Option.map_eq_some_iff] at hinside
      obtain ⟨site', hsecond, hinside'⟩ := hinside
      rw [hfirst, hsecond, Option.map_some, Option.map_some, Option.some_inj] at hstop
      have hstarts : site.start = site'.start := (hsite site hfirst).trans (hsite' site' hsecond).symm
      cases site
      cases site'
      rw [hsecond]
      simp_all
  · rintro ⟨rfl, hsites⟩
    rw [hsites]
    exact ⟨rfl, rfl, rfl⟩

/-- The fields of a class, but for its nested classes, tell all facts about it. -/
theorem facts_agrees_iff (h : analysis.facts.Placed) (h' : other.facts.Placed) :
    (∀ field, field ≠ .nested → Option.Rel Alike (analysis.field? field) (other.field? field)) ↔
      analysis.facts.Agrees other.facts := by
  constructor
  · intro hfields
    have hplace := (place_eq_iff h h').1 fun field hfield ↦
      hfields field (by rintro rfl; revert hfield; decide)
    constructor
    case superclass =>
      exact Json.alike_ofOption_text_iff.1 (rel_some_some_iff.1 (hfields .superclass nofun))
    case start => exact hplace.1
    case site => exact hplace.2
    case remarks => exact Remark.rel_list?_iff.1 (hfields .remarks nofun)
    case aspects =>
      intro aspect
      cases aspect with
      | fixed aspect => exact (rel_field?_fixed_iff aspect).1 (hfields (.aspect aspect) nofun)
      | generic side keyword => exact (rel_field?_side_iff side).1 (hfields (.side side) nofun) keyword
  · intro hagrees field hfield
    have hplace := (place_eq_iff h h').2 ⟨hagrees.start, hagrees.site⟩
    cases field with
    | nested => exact absurd rfl hfield
    | aspect aspect => exact (rel_field?_fixed_iff aspect).2 (hagrees.aspects _)
    | side side => exact (rel_field?_side_iff side).2 fun keyword ↦ hagrees.aspects _
    | superclass => exact .some (Json.alike_ofOption_text_iff.2 hagrees.superclass)
    | remarks => exact Remark.rel_list?_iff.2 hagrees.remarks
    | _ => exact hplace _ (by decide)

/-- Every class is placed and has one bucket for an aspect. -/
structure Regular (analysis : ClassAnalysis) : Prop where
  placed : ∀ found, analysis.Contains found → found.facts.Placed
  aspects : ∀ found, analysis.Contains found → found.facts.aspects.keys.Nodup

theorem Regular.of_mem_nested (h : analysis.Regular) {entry : Text × ClassAnalysis}
    (hentry : entry ∈ analysis.nested) : entry.2.Regular where
  placed found hfound := h.placed found (.nested hentry hfound)
  aspects found hfound := h.aspects found (.nested hentry hfound)

theorem regular_mk {facts : ClassFacts} {nested : List (Text × ClassAnalysis)}
    (hplaced : facts.Placed) (hkeys : facts.aspects.keys.Nodup)
    (hnested : ∀ entry ∈ nested, entry.2.Regular) :
    (mk facts nested).Regular := by
  constructor
  case placed =>
    intro found hfound
    cases hfound with
    | self => exact hplaced
    | nested hinner h => exact (hnested _ hinner).placed found h
  case aspects =>
    intro found hfound
    cases hfound with
    | self => exact hkeys
    | nested hinner h => exact (hnested _ hinner).aspects found h

/-- Attaching remarks keeps a class regular. -/
theorem Regular.withRemarks_placeRemarks (h : analysis.Regular) (remarks own : List Remark) :
    ((analysis.placeRemarks remarks).withRemarks own).Regular := by
  constructor
  case placed =>
    intro found hfound
    obtain ⟨inner, own', hinner, rfl⟩ := exists_of_contains_placeRemarks hfound
    rw [facts_withRemarks, facts_placeRemarks]
    exact h.placed inner hinner
  case aspects =>
    intro found hfound
    obtain ⟨inner, own', hinner, rfl⟩ := exists_of_contains_placeRemarks hfound
    rw [facts_withRemarks, facts_placeRemarks, Table.keys_map]
    exact h.aspects inner hinner

end ClassAnalysis

namespace Recognizer

variable {moduleName className : Text} {site : Option Site} {shape : ClassShape}
  {analysis : ClassAnalysis}

/-- In a described class each class stands where its site says. -/
theorem placed_of_contains (h : describe moduleName className site shape = .ok analysis)
    (hsite : ∀ s ∈ site, s.start = shape.function.start) {found : ClassAnalysis}
    (hfound : analysis.Contains found) : found.facts.Placed := by
  induction hfound generalizing className site shape with
  | self analysis =>
    refine ⟨shape.function.start, start_of_describe h, ?_⟩
    rw [site_of_describe h]
    exact hsite
  | nested hinner _ ih =>
    obtain ⟨call, member, shape', _, haspect, hshape', hinner'⟩ := exists_of_mem_nested h hinner
    apply ih hinner'
    rintro s ⟨⟩
    exact entryStart_of_nested haspect hshape'

/-- Every described class is regular, so that its fields tell all about it. -/
theorem regular_of_describe (h : describe moduleName className site shape = .ok analysis)
    (hsite : ∀ s ∈ site, s.start = shape.function.start) : analysis.Regular := by
  constructor
  case placed => exact fun found hfound ↦ placed_of_contains h hsite hfound
  case aspects =>
    intro found hfound
    obtain ⟨className', site', shape', hdescribed, _⟩ := describes_of_contains h hfound
    obtain ⟨superclass, _, _, rfl⟩ := describe_eq_ok hdescribed
    exact Table.nodup_keys_grouped _

end Recognizer

/-- All that analysis gives is regular. -/
theorem regular_of_analyzeScript {settings : Settings} {moduleName className : Text}
    {source : List Char} {analysis : ClassAnalysis}
    (h : analyzeScript settings moduleName className source = .ok analysis) : analysis.Regular := by
  obtain ⟨script, shape, described, hscript, _, hdescribed, rfl⟩ := analyzeScript_eq_ok h
  have hsorted := (Remark.pairwise_collect [settings.marker] hscript).imp le_of_lt
  rw [ClassAnalysis.attach_eq hsorted]
  exact (Recognizer.regular_of_describe hdescribed nofun).withRemarks_placeRemarks _ _

namespace ClassAnalysis

variable {analysis other : ClassAnalysis}

/-- Two classes have JSON that is alike just when they agree. -/
theorem alike_toJson_iff_agrees (h : analysis.Regular) (h' : other.Regular) :
    Alike analysis.toJson other.toJson ↔ analysis.Agrees other := by
  induction analysis using nestedInduction generalizing other with
  | step analysis ih =>
    -- The nested classes are shown in a field of their own, to which the hypothesis applies.
    have hfacts := facts_agrees_iff (h.placed _ (.self analysis)) (h'.placed _ (.self other))
    have hnested : Option.Rel Alike (analysis.field? .nested) (other.field? .nested) ↔
        ∀ name, Option.Rel Agrees (Table.get? name analysis.nested) (Table.get? name other.nested) := by
      rw [rel_field?_nested_iff]
      apply forall_congr'
      intro name
      apply rel_congr
      intro inner hinner inner' hinner'
      have hmem := Table.mem_of_get? hinner
      exact ih _ hmem (h.of_mem_nested hmem) (h'.of_mem_nested (Table.mem_of_get? hinner'))
    rw [alike_toJson_iff (h.aspects _ (.self analysis)) (h'.aspects _ (.self other))]
    constructor
    · intro hfields
      exact .mk (hfacts.1 fun field _ ↦ hfields field) (hnested.1 (hfields .nested))
    · rintro ⟨hagrees, hinner⟩ field
      by_cases hfield : field = .nested
      · rw [hfield]
        exact hnested.2 hinner
      · exact hfacts.2 hagrees field hfield

def exhibitedMember (value : Option Bool) (column : Int) : Declaration :=
  ⟨⟨⟨1, 20⟩, ⟨1, column⟩, ⟨1, column + 4⟩⟩, value, []⟩

def exhibitedInner (column : Int) : ClassAnalysis :=
  mk { moduleName := "m.m", className := "A._.inner", superclass := some "super",
       start := some ⟨1, column⟩, site := some ⟨⟨1, 60⟩, ⟨1, column⟩, ⟨1, column + 4⟩⟩ } []

/-- A class with a keyword that is called as an aspect is, and with names that fields have too. -/
def exhibit (value : Option Bool) : ClassAnalysis :=
  mk { moduleName := "m.m", className := "A", superclass := some "super", start := some ⟨1, 0⟩,
       aspects :=
        [(.fixed .flags, [("from", exhibitedMember (some true) 22), ("to", exhibitedMember value 30)]),
         (.generic .classSide "flags", [("from", exhibitedMember none 40)])] }
    [("nested", exhibitedInner 62), ("_", exhibitedInner 70)]

/-- The same under another name, with all of it put in the other way round. -/
def rearrangedExhibit : ClassAnalysis :=
  mk { moduleName := "m.m", className := "B", superclass := some "super", start := some ⟨1, 0⟩,
       aspects :=
        [(.generic .classSide "flags", [("from", exhibitedMember none 40)]),
         (.fixed .flags,
          [("to", exhibitedMember (some false) 30), ("from", exhibitedMember (some true) 22)])] }
    [("_", exhibitedInner 70), ("nested", exhibitedInner 62)]

theorem regular_exhibitedInner (column : Int) : (exhibitedInner column).Regular :=
  regular_mk ⟨⟨1, column⟩, rfl, by rintro site ⟨⟩; rfl⟩ List.nodup_nil nofun

theorem regular_exhibit (value : Option Bool) : (exhibit value).Regular := by
  refine regular_mk ⟨⟨1, 0⟩, rfl, nofun⟩ (by simp [Table.keys]) ?_
  simp [regular_exhibitedInner]

theorem regular_rearrangedExhibit : rearrangedExhibit.Regular := by
  refine regular_mk ⟨⟨1, 0⟩, rfl, nofun⟩ (by simp [Table.keys]) ?_
  simp [regular_exhibitedInner]

theorem exhibit_agrees : (exhibit (some false)).Agrees rearrangedExhibit := by
  constructor
  case facts =>
    refine ⟨rfl, rfl, rfl, rfl, fun aspect ↦ ?_⟩
    by_cases hflags : aspect = .fixed .flags
    · subst hflags
      exact .some (Table.get?_of_perm (by decide) (.swap _ _ []))
    · have heq : Table.get? aspect (exhibit (some false)).facts.aspects =
          Table.get? aspect rearrangedExhibit.facts.aspects := by
        simp [exhibit, rearrangedExhibit, facts, Table.get?, Ne.symm hflags]
      rw [heq]
      exact rel_self fun _ _ _ ↦ rfl
  case nested =>
    intro name
    have hperm : (exhibit (some false)).nested.Perm rearrangedExhibit.nested := .swap _ _ []
    rw [Table.get?_of_perm (by decide) hperm]
    exact rel_self fun inner _ ↦ .refl inner

/-- All that analysis gives can be told apart by its JSON. There the order of aspects, declarations and
nested classes does not show, and whether a declaration is a flag does. -/
theorem alike_toJson_exhibits :
    (∀ settings moduleName className source analysis,
      analyzeScript settings moduleName className source = .ok analysis → analysis.Regular) ∧
      (exhibit (some false)).Regular ∧ (exhibit none).Regular ∧ rearrangedExhibit.Regular ∧
      Alike (exhibit (some false)).toJson rearrangedExhibit.toJson ∧
      ¬Alike (exhibit (some false)).toJson (exhibit none).toJson := by
  refine ⟨fun _ _ _ _ _ ↦ regular_of_analyzeScript, regular_exhibit _, regular_exhibit _,
    regular_rearrangedExhibit, ?_, ?_⟩
  · exact (alike_toJson_iff_agrees (regular_exhibit _) regular_rearrangedExhibit).2 exhibit_agrees
  · intro h
    obtain ⟨hfacts, _⟩ := (alike_toJson_iff_agrees (regular_exhibit _) (regular_exhibit _)).1 h
    have hflags := rel_some_some_iff.1 (hfacts.aspects (.fixed .flags))
    have hto := hflags "to"
    revert hto
    decide

end ClassAnalysis

end ClassScript
