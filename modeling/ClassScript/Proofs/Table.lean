import ClassScript.Table
import Mathlib.Data.List.Induction
import Mathlib.Data.List.Pairwise

/-!
# Tables from lists of entries

Filing entries into a table one after the other gives one entry for each key, in the order in which
the keys come first, made of all values that were given for the key. `gather` says that without a table
that changes; `latest` is the case in which the last value replaces the others, and `grouped` that of
a table of such tables.
-/

namespace ClassScript.Table

variable {κ α β : Type} [DecidableEq κ]

/-- The values that a list of entries gives for a key, in their order. -/
def valuesOf (k : κ) (entries : List (κ × α)) : List α :=
  (entries.filter (·.1 = k)).map Prod.snd

def without (k : κ) (entries : List (κ × α)) : List (κ × α) := entries.filter (·.1 ≠ k)

/-- One entry for each key, in the order in which the keys come first, made of the key's first value and
of the others. -/
def gather (combine : α → List α → β) : List (κ × α) → Table κ β
  | [] => []
  | (k, v) :: rest => (k, combine v (valuesOf k rest)) :: gather combine (without k rest)
termination_by entries => entries.length
decreasing_by exact Nat.lt_succ_of_le (List.length_filter_le _ _)

/-- The last value for each key, in the order in which the keys come first. -/
def latest (entries : List (κ × α)) : Table κ α :=
  gather (fun first others ↦ others.getLastD first) entries

/-- For each key the table of its own entries. -/
def grouped {ι : Type} [DecidableEq ι] (entries : List (κ × ι × α)) : Table κ (Table ι α) :=
  gather (fun first others ↦ latest (first :: others)) entries

theorem valuesOf_cons_self (k : κ) (v : α) (entries : List (κ × α)) :
    valuesOf k ((k, v) :: entries) = v :: valuesOf k entries := by
  simp [valuesOf]

theorem valuesOf_cons_of_ne {k k' : κ} (h : k' ≠ k) (v : α) (entries : List (κ × α)) :
    valuesOf k ((k', v) :: entries) = valuesOf k entries := by
  simp [valuesOf, h]

theorem valuesOf_append (k : κ) (a b : List (κ × α)) :
    valuesOf k (a ++ b) = valuesOf k a ++ valuesOf k b := by
  rw [valuesOf, List.filter_append, List.map_append]
  rfl

theorem valuesOf_concat (k k' : κ) (v : α) (entries : List (κ × α)) :
    valuesOf k (entries ++ [(k', v)]) = valuesOf k entries ++ if k' = k then [v] else [] := by
  rw [valuesOf_append]
  by_cases h : k' = k
  · rw [h, valuesOf_cons_self, if_pos rfl]
    rfl
  · rw [valuesOf_cons_of_ne h, if_neg h]
    rfl

theorem without_concat (k k' : κ) (v : α) (entries : List (κ × α)) :
    without k (entries ++ [(k', v)]) = without k entries ++ if k' = k then [] else [(k', v)] := by
  by_cases h : k' = k
  · simp [without, h]
  · simp [without, h]

theorem valuesOf_without {k k' : κ} (h : k' ≠ k) (entries : List (κ × α)) :
    valuesOf k' (without k entries) = valuesOf k' entries := by
  unfold valuesOf without
  rw [List.filter_filter]
  congr 1
  apply List.filter_congr
  intro entry _
  by_cases hk : entry.1 = k'
  · simp [hk, h]
  · simp [hk]

theorem mem_valuesOf {k : κ} {v : α} {entries : List (κ × α)} :
    v ∈ valuesOf k entries ↔ (k, v) ∈ entries := by
  simp [valuesOf]

/-- One more entry changes what is gathered under its key and nothing else. -/
theorem gather_concat {combine : α → List α → β} (step : Option β → α → β)
    (hfirst : ∀ v, combine v [] = step none v)
    (hnext : ∀ v others w, combine v (others ++ [w]) = step (some (combine v others)) w)
    (entries : List (κ × α)) (k : κ) (v : α) :
    gather combine (entries ++ [(k, v)]) =
      alter k (fun old ↦ step old v) (gather combine entries) := by
  fun_induction gather combine entries with
  | case1 => simp [gather, alter, valuesOf, without, hfirst]
  | case2 k' v' rest ih =>
    rw [List.cons_append, gather, alter]
    by_cases h : k' = k
    · subst h
      rw [if_pos rfl, valuesOf_concat, if_pos rfl, hnext, without_concat, if_pos rfl, List.append_nil]
    · rw [if_neg h, valuesOf_concat, if_neg (Ne.symm h), List.append_nil, without_concat,
        if_neg (Ne.symm h), ih]

/-- Filing entries one after the other gathers them. -/
theorem foldl_alter_eq_gather {combine : α → List α → β} (step : Option β → α → β)
    (hfirst : ∀ v, combine v [] = step none v)
    (hnext : ∀ v others w, combine v (others ++ [w]) = step (some (combine v others)) w)
    (entries : List (κ × α)) :
    entries.foldl (fun t entry ↦ alter entry.1 (fun old ↦ step old entry.2) t) [] =
      gather combine entries := by
  induction entries using List.reverseRecOn with
  | nil => simp [gather]
  | append_singleton entries entry ih =>
    rw [List.foldl_append, ih, List.foldl_cons, List.foldl_nil]
    exact (gather_concat step hfirst hnext entries entry.1 entry.2).symm

/-- Putting entries one by one keeps the latest value of each key. -/
theorem foldl_put_eq_latest (entries : List (κ × α)) :
    entries.foldl (fun t entry ↦ put entry.1 entry.2 t) [] = latest entries :=
  foldl_alter_eq_gather (fun _ v ↦ v) (fun _ ↦ rfl) (fun _ _ _ ↦ by simp) entries

theorem latest_concat (entries : List (κ × α)) (k : κ) (v : α) :
    latest (entries ++ [(k, v)]) = put k v (latest entries) :=
  gather_concat (fun _ v ↦ v) (fun _ ↦ rfl) (fun _ _ _ ↦ by simp) entries k v

theorem put_of_not_mem {k : κ} (v : α) {t : Table κ α} (h : k ∉ t.keys) :
    put k v t = t ++ [(k, v)] := by
  induction t with
  | nil => rfl
  | cons entry rest ih =>
    rw [keys, List.map_cons, List.mem_cons, not_or] at h
    have hrest := ih h.2
    rw [put] at hrest ⊢
    rw [alter, if_neg (Ne.symm h.1), hrest, List.cons_append]

@[simp]
theorem latest_nil : latest ([] : List (κ × α)) = [] := by
  rw [latest, gather]

/-- Entries with different keys are all kept. -/
theorem latest_eq_self {entries : List (κ × α)} (h : (entries.map Prod.fst).Nodup) :
    latest entries = entries := by
  induction entries using List.reverseRecOn with
  | nil => exact latest_nil
  | append_singleton entries entry ih =>
    rw [List.map_append, List.map_singleton, List.nodup_append] at h
    have hnew : entry.1 ∉ keys entries := fun hmem ↦
      h.2.2 entry.1 hmem entry.1 (List.mem_singleton_self _) rfl
    rw [latest_concat, ih h.1, put_of_not_mem entry.2 hnew]

/-- Filing entries into a table of tables groups them. -/
theorem foldl_alter_put_eq_grouped {ι : Type} [DecidableEq ι] (entries : List (κ × ι × α)) :
    entries.foldl
      (fun t entry ↦ alter entry.1 (fun own ↦ put entry.2.1 entry.2.2 (own.getD [])) t) [] =
      grouped entries := by
  apply foldl_alter_eq_gather
    (fun (own : Option (Table ι α)) (entry : ι × α) ↦ put entry.1 entry.2 (own.getD []))
  · intro first
    simpa using latest_concat [] first.1 first.2
  · intro first others last
    exact latest_concat (first :: others) last.1 last.2

section Lookup

variable {combine : α → List α → β}

/-- Gathering combines the values of a key, from the first one on. -/
theorem get?_gather (combine : α → List α → β) (k : κ) (entries : List (κ × α)) :
    get? k (gather combine entries) =
      match valuesOf k entries with
      | [] => none
      | first :: others => some (combine first others) := by
  fun_induction gather combine entries with
  | case1 => rfl
  | case2 k' v rest ih =>
    rw [get?]
    by_cases h : k' = k
    · subst h
      rw [if_pos rfl, valuesOf_cons_self]
    · rw [if_neg h, ih, valuesOf_without (Ne.symm h), valuesOf_cons_of_ne h]

theorem mem_keys_gather {k : κ} {entries : List (κ × α)} (h : k ∈ (gather combine entries).keys) :
    k ∈ entries.map Prod.fst := by
  fun_induction gather combine entries with
  | case1 => exact h
  | case2 k' v rest ih =>
    rcases List.mem_cons.1 h with rfl | hrest
    · simp
    · obtain ⟨entry, hentry, rfl⟩ := List.mem_map.1 (ih hrest)
      exact List.mem_cons_of_mem _ (List.mem_map_of_mem (List.mem_filter.1 hentry).1)

/-- Gathering leaves each key once. -/
theorem nodup_keys_gather (combine : α → List α → β) (entries : List (κ × α)) :
    (gather combine entries).keys.Nodup := by
  fun_induction gather combine entries with
  | case1 => exact List.nodup_nil
  | case2 k v rest ih =>
    refine List.nodup_cons.2 ⟨?_, ih⟩
    intro hk
    obtain ⟨entry, hentry, heq⟩ := List.mem_map.1 (mem_keys_gather hk)
    exact of_decide_eq_true (List.mem_filter.1 hentry).2 heq

theorem mem_of_get? {t : Table κ α} {k : κ} {v : α} (h : get? k t = some v) : (k, v) ∈ t := by
  induction t with
  | nil => cases h
  | cons entry rest ih =>
    rw [get?] at h
    by_cases hk : entry.1 = k
    · rw [if_pos hk] at h
      rw [← hk, ← Option.some.inj h]
      exact List.mem_cons_self
    · rw [if_neg hk] at h
      exact List.mem_cons_of_mem _ (ih h)

/-- Under distinct keys, an entry is in a table just when it is found under its key. -/
theorem mem_iff_get? {t : Table κ α} (h : t.keys.Nodup) {k : κ} {v : α} :
    (k, v) ∈ t ↔ get? k t = some v := by
  induction t with
  | nil => simp [get?]
  | cons entry rest ih =>
    obtain ⟨k', v'⟩ := entry
    obtain ⟨hk', hrest⟩ := List.nodup_cons.1 h
    rw [get?, List.mem_cons, ih hrest]
    by_cases hk : k' = k
    · subst hk
      rw [if_pos rfl]
      constructor
      · rintro (heq | hget)
        · rw [(Prod.mk.inj heq).2]
        · exact absurd (List.mem_map_of_mem ((ih hrest).2 hget)) hk'
      · intro hget
        exact .inl (by rw [Option.some.inj hget])
    · rw [if_neg hk]
      constructor
      · rintro (heq | hget)
        · exact absurd (Prod.mk.inj heq).1.symm hk
        · exact hget
      · exact .inr

/-- An entry of a gathered table is made of the values of its key. -/
theorem mem_gather {k : κ} {b : β} {entries : List (κ × α)} :
    (k, b) ∈ gather combine entries ↔
      ∃ first others, valuesOf k entries = first :: others ∧ combine first others = b := by
  rw [mem_iff_get? (nodup_keys_gather combine entries), get?_gather]
  cases valuesOf k entries with
  | nil => simp
  | cons first others => simp

/-- The latest value of a key is its last one. -/
theorem get?_latest (k : κ) (entries : List (κ × α)) :
    get? k (latest entries) = (valuesOf k entries).getLast? := by
  rw [latest, get?_gather]
  cases valuesOf k entries with
  | nil => rfl
  | cons first others => simp [List.getLast?_cons]

theorem nodup_keys_latest (entries : List (κ × α)) : (latest entries).keys.Nodup :=
  nodup_keys_gather _ entries

theorem nodup_keys_grouped {ι : Type} [DecidableEq ι] (entries : List (κ × ι × α)) :
    (grouped entries).keys.Nodup :=
  nodup_keys_gather _ entries

theorem mem_latest {k : κ} {v : α} {entries : List (κ × α)} :
    (k, v) ∈ latest entries ↔ (valuesOf k entries).getLast? = some v := by
  rw [mem_iff_get? (nodup_keys_latest entries), get?_latest]

theorem mem_of_mem_latest {entry : κ × α} {entries : List (κ × α)} (h : entry ∈ latest entries) :
    entry ∈ entries :=
  mem_valuesOf.1 (List.mem_of_getLast? (mem_latest.1 h))

omit [DecidableEq κ] in
theorem keys_map (f : α → β) (t : Table κ α) :
    keys (t.map fun entry ↦ (entry.1, f entry.2)) = t.keys := by
  simp [keys]

theorem get?_map (f : α → β) (k : κ) (t : Table κ α) :
    get? k (t.map fun entry ↦ (entry.1, f entry.2)) = (get? k t).map f := by
  induction t with
  | nil => rfl
  | cons entry rest ih =>
    rw [List.map_cons, get?, get?]
    by_cases h : entry.1 = k
    · rw [if_pos h, if_pos h, Option.map_some]
    · rw [if_neg h, if_neg h, ih]

/-- Under different keys the order of the entries does not matter. -/
theorem get?_of_perm {t u : Table κ α} (hkeys : t.keys.Nodup) (h : t.Perm u) (k : κ) :
    get? k t = get? k u := by
  have hkeys' : u.keys.Nodup := (h.map Prod.fst).nodup_iff.1 hkeys
  apply Option.ext
  intro v
  rw [← mem_iff_get? hkeys, ← mem_iff_get? hkeys', h.mem_iff]

theorem get?_append (k : κ) (t u : Table κ α) : get? k (t ++ u) = (get? k t).or (get? k u) := by
  induction t with
  | nil => rfl
  | cons entry rest ih =>
    rw [List.cons_append, get?, get?]
    by_cases h : entry.1 = k
    · rw [if_pos h, if_pos h, Option.some_or]
    · rw [if_neg h, if_neg h, ih]

theorem get?_put (k k' : κ) (v : α) (t : Table κ α) :
    get? k (put k' v t) = if k' = k then some v else get? k t := by
  induction t with
  | nil => rfl
  | cons entry rest ih =>
    rw [put] at ih
    by_cases h : entry.1 = k'
    · rw [put, alter, if_pos h, get?, get?, h]
      split <;> rfl
    · rw [put, alter, if_neg h, get?, get?, ih]
      by_cases hk : entry.1 = k
      · rw [if_pos hk, if_neg (fun hk' ↦ h (hk.trans hk'.symm)), if_pos hk]
      · rw [if_neg hk, if_neg hk]

/-- Of values put one after the other under keys of their own making, all that come under a key being
equal, the one of the key is found. -/
theorem get?_foldl_put {γ : Type} {key : γ → κ} {value : γ → α} {k : κ} {v : α} {items : List γ}
    (h : ∀ item ∈ items, key item = k → value item = v) (t : Table κ α) :
    get? k (items.foldl (fun t item ↦ put (key item) (value item) t) t) =
      if ∃ item ∈ items, key item = k then some v else get? k t := by
  induction items generalizing t with
  | nil => simp
  | cons item rest ih =>
    rw [List.foldl_cons, ih (fun item' hitem' ↦ h item' (List.mem_cons_of_mem _ hitem')), get?_put]
    by_cases hrest : ∃ item' ∈ rest, key item' = k
    · have hcons : ∃ item' ∈ item :: rest, key item' = k :=
        hrest.imp fun _ ↦ And.imp_left (List.mem_cons_of_mem _)
      rw [if_pos hrest, if_pos hcons]
    · by_cases hitem : key item = k
      · rw [if_neg hrest, if_pos hitem, if_pos ⟨item, List.mem_cons_self, hitem⟩,
          h item List.mem_cons_self hitem]
      · rw [if_neg hrest, if_neg hitem, if_neg]
        simpa [hitem] using hrest

end Lookup

theorem map_put {f : κ → α → β} (k : κ) (v : α) (t : Table κ α) :
    (put k v t).map (fun entry ↦ (entry.1, f entry.1 entry.2)) =
      put k (f k v) (t.map fun entry ↦ (entry.1, f entry.1 entry.2)) := by
  induction t with
  | nil => rfl
  | cons entry rest ih =>
    obtain ⟨k', v'⟩ := entry
    by_cases h : k' = k
    · subst h
      simp [put, alter]
    · simpa [put, alter, h] using ih

/-- Mapping the values commutes with keeping the latest. -/
theorem latest_map (f : κ → α → β) (entries : List (κ × α)) :
    latest (entries.map fun entry ↦ (entry.1, f entry.1 entry.2)) =
      (latest entries).map fun entry ↦ (entry.1, f entry.1 entry.2) := by
  induction entries using List.reverseRecOn with
  | nil => simp
  | append_singleton entries entry ih =>
    rw [List.map_append, List.map_singleton, latest_concat, ih, latest_concat, map_put]

theorem rel_or_rel_of_pairwise {R : α → α → Prop} {xs : List α} (h : xs.Pairwise R) {a b : α}
    (ha : a ∈ xs) (hb : b ∈ xs) (hne : a ≠ b) : R a b ∨ R b a := by
  have hsymm : Std.Symm fun a b ↦ R a b ∨ R b a := ⟨fun _ _ ↦ Or.symm⟩
  have hboth : xs.Pairwise fun a b ↦ R a b ∨ R b a := h.imp Or.inl
  exact hboth.forall ha hb hne

/-- What holds between entries in their order holds, one way or the other, between those that are left
under different keys. -/
theorem pairwise_latest {R : κ × α → κ × α → Prop} {entries : List (κ × α)}
    (h : entries.Pairwise R) : (latest entries).Pairwise fun a b ↦ R a b ∨ R b a := by
  have hkeys : (latest entries).Pairwise fun a b ↦ a.1 ≠ b.1 :=
    List.pairwise_map.1 (nodup_keys_latest entries)
  apply hkeys.imp_of_mem
  intro a b ha hb hne
  exact rel_or_rel_of_pairwise h (mem_of_mem_latest ha) (mem_of_mem_latest hb)
    fun heq ↦ hne (congrArg Prod.fst heq)

end ClassScript.Table
