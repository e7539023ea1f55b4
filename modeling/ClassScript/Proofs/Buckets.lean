import ClassScript.Proofs.Entries

/-!
# The buckets of a class

A bucket holds entries that remarks can be attached to: the declarations of an aspect, or the nested
classes. In a described class the bucket of an aspect holds, under each name, what the last declared
member with that name added to it.
-/

namespace ClassScript

/-- An entry of a bucket, as far as remarks are concerned. -/
structure Holder where
  name : Text
  site : Option Site
  remarks : List Remark

def Holder.ofDeclaration (entry : Text × Declaration) : Holder :=
  ⟨entry.1, some entry.2.site, entry.2.remarks⟩

def Holder.ofClass (entry : Text × ClassAnalysis) : Holder :=
  ⟨entry.1, entry.2.facts.site, entry.2.facts.remarks⟩

namespace ClassAnalysis

/-- The buckets of a class: the declarations of each aspect, and the nested classes, which have no
aspect. -/
def buckets (analysis : ClassAnalysis) : List (Option Aspect × List Holder) :=
  analysis.facts.aspects.map (fun entry ↦ (some entry.1, entry.2.map Holder.ofDeclaration)) ++
    [(none, analysis.nested.map Holder.ofClass)]

theorem nested_mem_buckets (analysis : ClassAnalysis) :
    (none, analysis.nested.map Holder.ofClass) ∈ analysis.buckets :=
  List.mem_append_right _ (List.mem_singleton_self _)

def holders (analysis : ClassAnalysis) : List Holder := analysis.buckets.flatMap Prod.snd

theorem sublist_holders {analysis : ClassAnalysis} {bucket : Option Aspect × List Holder}
    (h : bucket ∈ analysis.buckets) : bucket.2.Sublist analysis.holders := by
  rw [holders, List.flatMap_def]
  exact List.sublist_flatten_of_mem (List.mem_map_of_mem h)

/-- Induction over a class and the classes nested in it. -/
@[elab_as_elim]
theorem nestedInduction {motive : ClassAnalysis → Prop}
    (step : ∀ analysis, (∀ entry ∈ analysis.nested, motive entry.2) → motive analysis)
    (analysis : ClassAnalysis) : motive analysis := by
  refine @ClassAnalysis.rec motive (fun nested ↦ ∀ entry ∈ nested, motive entry.2)
    (fun entry ↦ motive entry.2) ?_ ?_ ?_ ?_ analysis
  · intro facts nested ih
    exact step (mk facts nested) ih
  · exact List.forall_mem_nil _
  · intro entry rest hentry hrest
    exact List.forall_mem_cons.2 ⟨hentry, hrest⟩
  · intro name inner ih
    exact ih

/-- A class is found in an analysis, as its outermost class or nested in it at any depth. -/
inductive Contains : ClassAnalysis → ClassAnalysis → Prop where
  | self (analysis : ClassAnalysis) : Contains analysis analysis
  | nested {outer inner found : ClassAnalysis} {name : Text} (hinner : (name, inner) ∈ outer.nested)
    (h : Contains inner found) : Contains outer found

end ClassAnalysis

namespace Recognizer

open JavaScript (Node)

def Entry.holder (entry : Entry) : Holder := ⟨entry.name, entry.site?, entry.remarks⟩

/-- What the bucket of an aspect holds when the given entries have been filed. -/
def holdersOf (aspect? : Option Aspect) (entries : List Entry) : List Holder :=
  (Table.latest ((entries.filter (·.aspect? = aspect?)).map fun entry ↦
    (entry.name, entry.holder))).map Prod.snd

theorem valuesOf_declaration? (aspect : Aspect) (entries : List Entry) :
    (Table.valuesOf aspect (entries.filterMap Entry.declaration?)).map
        (fun entry ↦ (entry.1, Holder.ofDeclaration entry)) =
      (entries.filter (·.aspect? = some aspect)).map fun entry ↦ (entry.name, entry.holder) := by
  induction entries with
  | nil => rfl
  | cons entry rest ih =>
    cases entry with
    | nested name inner =>
      rw [List.filterMap_cons_none rfl, ih, List.filter_cons_of_neg (by simp [Entry.aspect?])]
    | declaration aspect' name declared =>
      have hcons : (Entry.declaration aspect' name declared :: rest).filterMap Entry.declaration? =
          (aspect', name, declared) :: rest.filterMap Entry.declaration? := rfl
      rw [hcons]
      by_cases h : aspect' = aspect
      · subst h
        rw [Table.valuesOf_cons_self, List.map_cons, ih,
          List.filter_cons_of_pos (by simp [Entry.aspect?])]
        rfl
      · rw [Table.valuesOf_cons_of_ne h, ih, List.filter_cons_of_neg (by simp [Entry.aspect?, h])]

theorem filterMap_nested? (entries : List Entry) :
    (entries.filterMap Entry.nested?).map (fun entry ↦ (entry.1, Holder.ofClass entry)) =
      (entries.filter (·.aspect? = none)).map fun entry ↦ (entry.name, entry.holder) := by
  induction entries with
  | nil => rfl
  | cons entry rest ih =>
    cases entry with
    | declaration aspect name declared =>
      rw [List.filterMap_cons_none rfl, ih, List.filter_cons_of_neg (by simp [Entry.aspect?])]
    | nested name inner =>
      have hcons : (Entry.nested name inner :: rest).filterMap Entry.nested? =
          (name, inner) :: rest.filterMap Entry.nested? := rfl
      rw [hcons, List.map_cons, ih, List.filter_cons_of_pos (by simp [Entry.aspect?])]
      rfl

/-- The buckets of a class that consists of the given entries. -/
theorem holders_of_mem_buckets {moduleName className superclass : Text} {site : Option Site}
    {function : Node} {entries : List Entry} {aspect? : Option Aspect} {holders : List Holder}
    (h : (aspect?, holders) ∈
      (ofEntries moduleName className superclass site function entries).buckets) :
    holders = holdersOf aspect? entries := by
  unfold ClassAnalysis.buckets at h
  rw [List.mem_append] at h
  rcases h with hdeclared | hnested
  · obtain ⟨⟨aspect, bucket⟩, hbucket, heq⟩ := List.mem_map.1 hdeclared
    obtain ⟨first, others, hvalues, rfl⟩ := Table.mem_gather.1 hbucket
    cases heq
    have hmap := Table.latest_map (fun name declared ↦ Holder.ofDeclaration (name, declared))
      (first :: others)
    rw [holdersOf, ← valuesOf_declaration?, hvalues, hmap, List.map_map]
    rfl
  · rw [List.mem_singleton] at hnested
    cases hnested
    have hmap := Table.latest_map (fun name inner ↦ Holder.ofClass (name, inner))
      (entries.filterMap Entry.nested?)
    rw [holdersOf, ← filterMap_nested?, hmap, List.map_map]
    rfl

/-- An entry of a bucket was added to that bucket. -/
theorem mem_holdersOf {aspect? : Option Aspect} {entries : List Entry} {holder : Holder}
    (h : holder ∈ holdersOf aspect? entries) :
    ∃ entry ∈ entries, entry.aspect? = aspect? ∧ holder = entry.holder := by
  obtain ⟨⟨name, found⟩, hfound, rfl⟩ := List.mem_map.1 h
  obtain ⟨entry, hentry, heq⟩ := List.mem_map.1 (Table.mem_of_mem_latest hfound)
  cases heq
  obtain ⟨hmem, haspect⟩ := List.mem_filter.1 hentry
  exact ⟨entry, hmem, of_decide_eq_true haspect, rfl⟩

/-- An entry is held in its bucket unless a later one of the bucket has its name. -/
theorem holder_mem_or_replaced {aspect? : Option Aspect} {before after : List Entry} {entry : Entry}
    (haspect : entry.aspect? = aspect?) :
    entry.holder ∈ holdersOf aspect? (before ++ entry :: after) ∨
      ∃ later ∈ after, later.aspect? = aspect? ∧ later.name = entry.name := by
  by_cases hlater : ∃ later ∈ after, later.aspect? = aspect? ∧ later.name = entry.name
  · exact .inr hlater
  · left
    refine List.mem_map.2 ⟨(entry.name, entry.holder), Table.mem_latest.2 ?_, rfl⟩
    have hafter : Table.valuesOf entry.name
        ((after.filter (·.aspect? = aspect?)).map fun entry ↦ (entry.name, entry.holder)) = [] := by
      apply List.eq_nil_iff_forall_not_mem.2
      intro holder hholder
      obtain ⟨later, hmem, heq⟩ := List.mem_map.1 (Table.mem_valuesOf.1 hholder)
      obtain ⟨hmem, hfiled⟩ := List.mem_filter.1 hmem
      exact hlater ⟨later, hmem, of_decide_eq_true hfiled, congrArg Prod.fst heq⟩
    have hcons : (entry :: after).filter (·.aspect? = aspect?) =
        entry :: after.filter (·.aspect? = aspect?) :=
      List.filter_cons_of_pos (decide_eq_true haspect)
    rw [List.filter_append, hcons, List.map_append, List.map_cons, Table.valuesOf_append,
      Table.valuesOf_cons_self, hafter, List.getLast?_concat]

end Recognizer

end ClassScript
