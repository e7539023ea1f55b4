import ClassScript.Proofs.Addresses
import ClassScript.Proofs.Takers

/-!
# The order in which entries were put in

Analyses may differ in the order of their aspects, of the declarations of an aspect and of the nested
classes, at every depth. If no two entries of a bucket start together, an entry that takes a remark is
told by the sites in its bucket, whatever their order. So remarks at different positions, given in any
order, go to the same entries of both analyses.
-/

namespace ClassScript

/-! ## Reordered tables -/

namespace Table

/-- Tables with the same keys in any order, and with related values under each key. -/
inductive Reordered {κ α : Type} (R : α → α → Prop) : Table κ α → Table κ α → Prop where
  | nil : Reordered R [] []
  /-- The first entry of one table stands anywhere in the other. -/
  | entry {k : κ} {v w : α} {rest before after : Table κ α} (value : R v w)
    (others : Reordered R rest (before ++ after)) :
    Reordered R ((k, v) :: rest) (before ++ (k, w) :: after)

namespace Reordered

variable {κ α : Type} {R : α → α → Prop} {t u : Table κ α}

/-- What is made of the entries alike is the same in any order. -/
theorem map_perm {β : Type} {f : κ × α → β} (h : Reordered R t u)
    (hf : ∀ k v w, R v w → f (k, v) = f (k, w)) : (t.map f).Perm (u.map f) := by
  induction h with
  | nil => exact .nil
  | @entry k v w rest before after hvalue _ ih =>
    rw [List.map_cons, List.map_append, List.map_cons, hf k v w hvalue]
    rw [List.map_append] at ih
    exact (ih.cons _).trans List.perm_middle.symm

theorem keys_perm (h : Reordered R t u) : t.keys.Perm u.keys :=
  h.map_perm fun _ _ _ _ ↦ rfl

variable [DecidableEq κ]

/-- A reordered table gives related values for each key. -/
theorem rel_get? (h : Reordered R t u) (hkeys : t.keys.Nodup) (k : κ) :
    Option.Rel R (get? k t) (get? k u) := by
  induction h with
  | nil => exact .none
  | @entry k' v w rest before after hvalue hothers ih =>
    obtain ⟨hnew, hrest⟩ := List.nodup_cons.1 hkeys
    rw [get?, get?_append, get?]
    by_cases hk : k' = k
    · have habsent : get? k before = none := by
        cases hfound : get? k before with
        | none => rfl
        | some found =>
          -- the key would be among those of the other entries
          have hmem : k' ∈ (before ++ after).keys := by
            rw [hk]
            exact List.mem_map_of_mem (List.mem_append_left _ (mem_of_get? hfound))
          exact absurd (hothers.keys_perm.mem_iff.2 hmem) hnew
      rw [if_pos hk, if_pos hk, habsent]
      exact .some hvalue
    · rw [if_neg hk, if_neg hk, ← get?_append]
      exact ih hrest

end Reordered

end Table

/-- Classes that differ, apart from what is nested in them, in the order of their aspects and of the
declarations of an aspect. -/
structure ClassFacts.Reordered (facts other : ClassFacts) : Prop where
  alike : { facts with aspects := [] } = { other with aspects := [] }
  aspects : Table.Reordered List.Perm facts.aspects other.aspects

namespace Attachment

/-! ## Takers in a bucket without ties -/

/-- No two entries of a bucket start together. -/
def Apart (holders : List Holder) : Prop :=
  (holders.filterMap fun holder ↦ holder.site.map Site.start).Nodup

instance (holders : List Holder) : Decidable (Apart holders) :=
  inferInstanceAs (Decidable (List.Nodup _))

/-- An entry takes a remark, said without an order of the entries in its bucket. -/
def TakesAmong (holders : List Holder) (remark : Remark) (holder : Holder) : Prop :=
  ∃ site ∈ holder.site, remark.start < site.reach ∧
    (∀ other ∈ holders, ∀ earlier ∈ other.site, earlier.start < site.start →
      earlier.reach ≤ remark.start) ∧
    site.inside ≤ remark.start ∧ remark.start < site.start

theorem Apart.ne {holders : List Holder} (h : Apart holders) {i j : Nat} (hlt : i < j)
    {first second : Holder} (hfirst : holders[i]? = some first) (hsecond : holders[j]? = some second)
    {site site' : Site} (hsite : site ∈ first.site) (hsite' : site' ∈ second.site) :
    site.start ≠ site'.start := by
  have hpairwise := List.pairwise_filterMap.1 h
  obtain ⟨hi, rfl⟩ := List.getElem?_eq_some_iff.1 hfirst
  obtain ⟨hj, rfl⟩ := List.getElem?_eq_some_iff.1 hsecond
  have hne := List.pairwise_iff_getElem.1 hpairwise i j hi hj hlt
  apply hne site.start _ site'.start
  · exact Option.map_eq_some_iff.2 ⟨site', hsite', rfl⟩
  · exact Option.map_eq_some_iff.2 ⟨site, hsite, rfl⟩

/-- Where no two entries start together, who takes a remark does not depend on their order. -/
theorem takes_iff_takesAmong {holders : List Holder} (h : Apart holders) {index : Nat}
    {holder : Holder} (hholder : holders[index]? = some holder) (remark : Remark) :
    Takes (holders.map Holder.site) remark index ↔ TakesAmong holders remark holder := by
  have hsite : (holders.map Holder.site)[index]?.join = holder.site := by
    rw [List.getElem?_map, hholder]
    rfl
  rw [Takes, TakesAmong, hsite]
  apply exists_congr
  intro site
  apply and_congr_right
  intro hmem
  apply and_congr_right
  intro _
  apply and_congr_left
  intro _
  constructor
  · intro hothers other hother earlier hearlier hlt
    obtain ⟨index', hindex'⟩ := List.mem_iff_getElem?.1 hother
    apply hothers (index', earlier) (mem_sited.2 _) (.inl hlt)
    rw [List.getElem?_map, hindex', Option.map_some, hearlier]
  · rintro hothers ⟨index', earlier⟩ hsited hearlier
    have hindex' := mem_sited.1 hsited
    rw [List.getElem?_map, Option.map_eq_some_iff] at hindex'
    obtain ⟨other, hother, hsite'⟩ := hindex'
    apply hothers other (List.mem_of_getElem? hother) earlier hsite'
    -- entries that start together would be a tie
    rcases hearlier with hlt | ⟨htie, hlt⟩
    · exact hlt
    · exact absurd htie (h.ne hlt hother hholder hsite' hmem)

/-- Under different names, entries are found by their names in any order. -/
theorem find?_name_perm {holders others : List Holder} (hperm : holders.Perm others)
    (hnames : (holders.map Holder.name).Nodup) (name : Text) :
    holders.find? (·.name = name) = others.find? (·.name = name) := by
  have hfind (bucket : List Holder) : bucket.find? (·.name = name) =
      Table.get? name (bucket.map fun holder ↦ (holder.name, holder)) := by
    induction bucket with
    | nil => rfl
    | cons holder rest ih =>
      rw [List.map_cons, Table.get?, ← ih, List.find?_cons]
      by_cases hname : holder.name = name
      · simp [hname]
      · simp [hname]
  rw [hfind, hfind]
  apply Table.get?_of_perm _ (hperm.map _)
  simpa [Table.keys, Function.comp_def] using hnames

theorem pairwise_sorted (remarks : List Remark) :
    (sorted remarks).Pairwise (·.start ≤ ·.start) :=
  pairwise_mergeSort_key Remark.start (fun _ _ ↦ decide_eq_true_iff) remarks

/-- Remarks at different positions come in one order only. -/
theorem sorted_perm {remarks permuted : List Remark} (hperm : remarks.Perm permuted)
    (hpositions : (remarks.map Remark.start).Nodup) : sorted remarks = sorted permuted := by
  have hsorted := List.mergeSort_perm remarks fun a b ↦ decide (a.start ≤ b.start)
  have hsorted' := List.mergeSort_perm permuted fun a b ↦ decide (a.start ≤ b.start)
  apply eq_of_perm_of_pairwise_key Remark.start _ _ (pairwise_sorted remarks)
    (pairwise_sorted permuted)
  · exact hsorted.trans (hperm.trans hsorted'.symm)
  · exact (hsorted.map Remark.start).nodup_iff.2 hpositions

/-- Entries that are found by their name in reordered buckets get the same of remarks in order. -/
theorem shareOf_perm {remarks : List Remark} (hsorted : remarks.Pairwise (·.start ≤ ·.start))
    {holders others : List Holder} (hperm : holders.Perm others) (h : Apart holders) {name : Text}
    {holder : Holder} (hfound : holders.find? (·.name = name) = some holder)
    (hfound' : others.find? (·.name = name) = some holder) :
    shareOf remarks holders name = shareOf remarks others name := by
  have hapart : Apart others := (hperm.filterMap _).nodup_iff.1 h
  have hshare {bucket : List Holder} (hbucket : bucket.find? (·.name = name) = some holder) :
      shareOf remarks bucket name =
        remarks.filter fun remark ↦
          Takes (bucket.map Holder.site) remark (bucket.findIdx (·.name = name)) := by
    rw [List.find?_eq_getElem?_findIdx] at hbucket
    have hlt := (List.getElem?_eq_some_iff.1 hbucket).1
    rw [shareOf, place_eq_takes hsorted, List.getElem?_map, List.getElem?_range (by simpa using hlt)]
    rfl
  rw [hshare hfound, hshare hfound']
  rw [List.find?_eq_getElem?_findIdx] at hfound hfound'
  apply List.filter_congr
  intro remark _
  rw [decide_eq_decide, takes_iff_takesAmong h hfound, takes_iff_takesAmong hapart hfound']
  simp only [TakesAmong, hperm.mem_iff]

end Attachment

namespace ClassAnalysis

/-- Classes that differ in the order of what they declare and nest, as do the classes nested in
them. -/
inductive Reordered : ClassAnalysis → ClassAnalysis → Prop where
  | mk {analysis other : ClassAnalysis} (facts : analysis.facts.Reordered other.facts)
    (nested : Table.Reordered Reordered analysis.nested other.nested) : Reordered analysis other

/-- In every class all keys are different, as they are in tables that entries have been put into, and no
two entries of a bucket start together. -/
structure Unambiguous (analysis : ClassAnalysis) : Prop where
  aspects : ∀ found, analysis.Contains found → found.facts.aspects.keys.Nodup
  names : ∀ found, analysis.Contains found → ∀ bucket ∈ found.buckets,
    (bucket.2.map Holder.name).Nodup
  starts : ∀ found, analysis.Contains found → ∀ bucket ∈ found.buckets,
    Attachment.Apart bucket.2

variable {analysis other : ClassAnalysis}

theorem Unambiguous.of_mem_nested (h : analysis.Unambiguous) {entry : Text × ClassAnalysis}
    (hentry : entry ∈ analysis.nested) : entry.2.Unambiguous where
  aspects found hfound := h.aspects found (.nested hentry hfound)
  names found hfound := h.names found (.nested hentry hfound)
  starts found hfound := h.starts found (.nested hentry hfound)

theorem Unambiguous.nodup_names (h : analysis.Unambiguous) : analysis.nested.keys.Nodup := by
  have hnames := h.names analysis (.self analysis) _ (nested_mem_buckets analysis)
  rwa [List.map_map] at hnames

/-! ## Buckets of reordered classes -/

theorem get?_some_buckets (aspect : Aspect) (analysis : ClassAnalysis) :
    Table.get? (some aspect) analysis.buckets =
      (Table.get? aspect analysis.facts.aspects).map (List.map Holder.ofDeclaration) := by
  rw [buckets, Table.get?_append, Table.get?, if_neg (by simp), Table.get?, Option.or_none]
  induction analysis.facts.aspects with
  | nil => rfl
  | cons entry rest ih =>
    rw [List.map_cons, Table.get?, Table.get?, ih]
    by_cases h : entry.1 = aspect
    · rw [if_pos (congrArg some h), if_pos h, Option.map_some]
    · rw [if_neg (fun heq ↦ h (Option.some.inj heq)), if_neg h]

theorem get?_none_buckets (analysis : ClassAnalysis) :
    Table.get? none analysis.buckets = some (analysis.nested.map Holder.ofClass) := by
  rw [buckets, Table.get?_append, Table.get?, if_pos rfl]
  induction analysis.facts.aspects with
  | nil => rfl
  | cons entry rest ih => rwa [List.map_cons, Table.get?, if_neg (by simp)]

theorem Reordered.ofClass_eq {inner inner' : ClassAnalysis} (h : inner.Reordered inner')
    (name : Text) : Holder.ofClass (name, inner) = Holder.ofClass (name, inner') := by
  obtain ⟨hfacts, _⟩ := h
  have halike := hfacts.alike
  simp only [ClassFacts.mk.injEq] at halike
  simp only [Holder.ofClass, halike]

/-- Under every path, reordered classes have the same buckets up to the order of their entries. -/
theorem Reordered.bucketAt?_perm (h : analysis.Reordered other) (hclear : analysis.Unambiguous)
    (aspect? : Option Aspect) (path : List Text) :
    Option.Rel List.Perm (analysis.bucketAt? aspect? path) (other.bucketAt? aspect? path) := by
  induction path generalizing analysis other with
  | nil =>
    obtain ⟨hfacts, hnested⟩ := h
    rw [bucketAt?, bucketAt?]
    cases aspect? with
    | none =>
      rw [get?_none_buckets, get?_none_buckets]
      exact .some (hnested.map_perm fun name _ _ hinner ↦ hinner.ofClass_eq name)
    | some aspect =>
      rw [get?_some_buckets, get?_some_buckets]
      exact rel_map (hfacts.aspects.rel_get? (hclear.aspects _ (.self _)) aspect) fun _ _ hperm ↦
        hperm.map _
  | cons name path ih =>
    obtain ⟨_, hnested⟩ := h
    rw [bucketAt?, bucketAt?]
    apply rel_bind (hnested.rel_get? hclear.nodup_names name)
    intro inner hinner inner' _ hreordered
    exact ih hreordered (hclear.of_mem_nested (Table.mem_of_get? hinner))

theorem exists_of_bucketAt? {aspect? : Option Aspect} {path : List Text} {holders : List Holder}
    (h : analysis.bucketAt? aspect? path = some holders) :
    ∃ found, analysis.Contains found ∧ (aspect?, holders) ∈ found.buckets := by
  induction path generalizing analysis with
  | nil => exact ⟨analysis, .self analysis, Table.mem_of_get? h⟩
  | cons name path ih =>
    obtain ⟨inner, hinner, hbucket⟩ := Option.bind_eq_some_iff.1 h
    obtain ⟨found, hfound, hmem⟩ := ih hbucket
    exact ⟨found, .nested (Table.mem_of_get? hinner) hfound, hmem⟩

/-- Remarks at different positions are attached to the same entries, in whatever order the entries were
put in and the remarks are given. -/
theorem attach_reordered (hreordered : analysis.Reordered other) (hclear : analysis.Unambiguous)
    {remarks permuted : List Remark} (hperm : remarks.Perm permuted)
    (hpositions : (remarks.map Remark.start).Nodup) (address : Address) :
    (analysis.attach remarks).remarksAt? address = (other.attach permuted).remarksAt? address := by
  have hbuckets := hreordered.bucketAt?_perm hclear address.aspect? address.path
  have hentries (holders : List Holder)
      (hbucket : analysis.bucketAt? address.aspect? address.path = some holders) :
      (holders.map Holder.name).Nodup ∧ Attachment.Apart holders := by
    obtain ⟨found, hfound, hmem⟩ := exists_of_bucketAt? hbucket
    exact ⟨hclear.names found hfound _ hmem, hclear.starts found hfound _ hmem⟩
  rw [remarksAt?_attach, remarksAt?_attach, ← Attachment.sorted_perm hperm hpositions]
  unfold remarksAt? shareAt
  revert hbuckets hentries
  generalize analysis.bucketAt? address.aspect? address.path = bucket?
  generalize other.bucketAt? address.aspect? address.path = other?
  intro hbuckets hentries
  cases hbuckets with
  | none => rfl
  | @some holders others hperm =>
    obtain ⟨hnames, hapart⟩ := hentries holders rfl
    have hfind := Attachment.find?_name_perm hperm hnames address.name
    simp only [Option.bind_some, Option.map_some, Option.getD_some, ← hfind]
    cases hfound : holders.find? (·.name = address.name) with
    | none => rfl
    | some holder =>
      rw [Attachment.shareOf_perm (Attachment.pairwise_sorted remarks) hperm hapart hfound
        (hfind.symm.trans hfound)]

theorem unambiguous_mk {facts : ClassFacts} {nested : List (Text × ClassAnalysis)}
    (haspects : facts.aspects.keys.Nodup)
    (hbuckets : ∀ bucket ∈ (mk facts nested).buckets,
      (bucket.2.map Holder.name).Nodup ∧ Attachment.Apart bucket.2)
    (hnested : ∀ entry ∈ nested, entry.2.Unambiguous) : (mk facts nested).Unambiguous := by
  constructor
  case aspects =>
    intro found hfound
    cases hfound with
    | self => exact haspects
    | nested hinner h => exact (hnested _ hinner).aspects found h
  case names =>
    intro found hfound
    cases hfound with
    | self => exact fun bucket hbucket ↦ (hbuckets bucket hbucket).1
    | nested hinner h => exact (hnested _ hinner).names found h
  case starts =>
    intro found hfound
    cases hfound with
    | self => exact fun bucket hbucket ↦ (hbuckets bucket hbucket).2
    | nested hinner h => exact (hnested _ hinner).starts found h

def shelvedMember (column : Int) : Declaration :=
  ⟨⟨⟨1, 0⟩, ⟨1, column⟩, ⟨1, column + 3⟩⟩, none, []⟩

def shelf (flags : Bucket) : ClassAnalysis :=
  mk { moduleName := "m", className := "A._.E", start := some ⟨1, 50⟩,
       site := some ⟨⟨1, 40⟩, ⟨1, 50⟩, ⟨1, 90⟩⟩, aspects := [(.fixed .flags, flags)] } []

/-- A class without a site, which takes no remarks. -/
def looseShelf : ClassAnalysis := mk { moduleName := "m", className := "A._.F" } []

def library : ClassAnalysis :=
  mk { moduleName := "m", className := "A", start := some ⟨1, 0⟩,
       aspects :=
        [(.fixed .package, [("a", shelvedMember 10), ("b", shelvedMember 20)]),
         (.generic .classSide "k", [("a", shelvedMember 30)])] }
    [("E", shelf [("x", shelvedMember 60), ("y", shelvedMember 70)]), ("F", looseShelf)]

/-- The same with all of it put in the other way round. -/
def rearrangedLibrary : ClassAnalysis :=
  mk { moduleName := "m", className := "A", start := some ⟨1, 0⟩,
       aspects :=
        [(.generic .classSide "k", [("a", shelvedMember 30)]),
         (.fixed .package, [("b", shelvedMember 20), ("a", shelvedMember 10)])] }
    [("F", looseShelf), ("E", shelf [("y", shelvedMember 70), ("x", shelvedMember 60)])]

theorem library_reordered : library.Reordered rearrangedLibrary := by
  have hswap {κ α : Type} {R : α → α → Prop} {k k' : κ} {v w v' w' : α} (h : R v w) (h' : R v' w') :
      Table.Reordered R [(k, v), (k', v')] [(k', w'), (k, w)] :=
    @Table.Reordered.entry κ α R k v w [(k', v')] [(k', w')] [] h
      (@Table.Reordered.entry κ α R k' v' w' [] [] [] h' .nil)
  have hloose : looseShelf.Reordered looseShelf := ⟨⟨rfl, .nil⟩, .nil⟩
  have hshelf (first second : Text × Declaration) :
      (shelf [first, second]).Reordered (shelf [second, first]) := by
    refine ⟨⟨rfl, ?_⟩, .nil⟩
    exact @Table.Reordered.entry _ _ _ _ _ _ [] [] [] (.swap _ _ _) .nil
  exact ⟨⟨rfl, hswap (.swap _ _ _) (.refl _)⟩, hswap (hshelf _ _) hloose⟩

theorem library_unambiguous : library.Unambiguous := by
  refine unambiguous_mk (by decide) (by decide) ?_
  have hshelf : (shelf [("x", shelvedMember 60), ("y", shelvedMember 70)]).Unambiguous :=
    unambiguous_mk (by decide) (by decide) (List.forall_mem_nil _)
  have hloose : looseShelf.Unambiguous :=
    unambiguous_mk (by decide) (by decide) (List.forall_mem_nil _)
  simp [hshelf, hloose]

/-- Of five remarks, given forwards and backwards, one goes to a member of a nested class and two go to
the nested class itself. -/
theorem attach_library :
    let remarks : List Remark :=
      [⟨"r", ⟨1, 5⟩⟩, ⟨"s", ⟨1, 15⟩⟩, ⟨"t", ⟨1, 42⟩⟩, ⟨"u", ⟨1, 44⟩⟩, ⟨"v", ⟨1, 65⟩⟩]
    library.Reordered rearrangedLibrary ∧ library.Unambiguous ∧
      remarks.Perm remarks.reverse ∧ (remarks.map Remark.start).Nodup ∧
      (∀ address, (library.attach remarks).remarksAt? address =
        (rearrangedLibrary.attach remarks.reverse).remarksAt? address) ∧
      (rearrangedLibrary.attach remarks.reverse).remarksAt? ⟨["E"], some (.fixed .flags), "y"⟩ =
        some [⟨"v", ⟨1, 65⟩⟩] ∧
      (rearrangedLibrary.attach remarks.reverse).remarksAt? ⟨[], none, "E"⟩ =
        some [⟨"t", ⟨1, 42⟩⟩, ⟨"u", ⟨1, 44⟩⟩] := by
  intro remarks
  have hperm : remarks.Perm remarks.reverse := (List.reverse_perm remarks).symm
  have hpositions : (remarks.map Remark.start).Nodup := by
    decide
  have hsame := attach_reordered library_reordered library_unambiguous hperm hpositions
  have hsorted : remarks.Pairwise (·.start ≤ ·.start) := by
    decide
  -- The answer for the class in its first order can be evaluated without sorting anything.
  have hshare (address : Address) : (rearrangedLibrary.attach remarks.reverse).remarksAt? address =
      (library.remarksAt? address).map (· ++ library.shareAt remarks address) := by
    rw [← hsame, remarksAt?_attach, sorted_eq_self hsorted]
  refine ⟨library_reordered, library_unambiguous, hperm, hpositions, hsame, ?_, ?_⟩
  · rw [hshare]
    simp only [shareAt, Attachment.shareOf, Attachment.place_eq_takes hsorted]
    decide +kernel
  · rw [hshare]
    simp only [shareAt, Attachment.shareOf, Attachment.place_eq_takes hsorted]
    decide +kernel

end ClassAnalysis

end ClassScript
