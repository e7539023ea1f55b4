import ClassScript.Source
import Mathlib.Data.List.Lex
import Mathlib.Data.List.Nodup
import Mathlib.Order.Fin.Basic

/-!
# Sorting by names and by places

Texts are compared by code point and places by component, and both comparisons are the lexicographic
order of lists. Whatever is sorted by a key of such an order comes out in the order of its keys; with
different keys the result is the same for every order in which the entries are given, and entries with
the same key stay in the order in which they are given.
-/

namespace ClassScript

/-! ## Lexicographic comparisons -/

section Lexicographic

variable {α : Type} [LinearOrder α]

theorem nil_le_list (as : List α) : [] ≤ as := not_lt.1 (List.not_lt_nil as)

theorem cons_le_cons_list {a b : α} {as bs : List α} :
    a :: as ≤ b :: bs ↔ a < b ∨ a = b ∧ as ≤ bs := by
  rw [le_iff_lt_or_eq, List.cons_lt_cons_iff, List.cons.injEq, or_assoc, ← and_or_left,
    ← le_iff_lt_or_eq]

end Lexicographic

theorem Text.le_iff {a b : Text} : a.le b = true ↔ a ≤ b := by
  induction a generalizing b with
  | nil => simp [Text.le, nil_le_list]
  | cons c s ih =>
    cases b with
    | nil => simp [Text.le]
    | cons d t =>
      rw [Text.le, cons_le_cons_list, ← ih]
      rcases lt_trichotomy c d with hlt | rfl | hgt
      · simp [Fin.lt_def.1 hlt, hlt]
      · simp
      · have hnot : ¬c.val < d.val := not_lt_of_gt (Fin.lt_def.1 hgt)
        simp [hnot, Fin.lt_def.1 hgt, not_lt_of_gt hgt, ne_of_gt hgt]

theorem Source.placeLe_iff {a b : List Text} : placeLe a b = true ↔ a ≤ b := by
  induction a generalizing b with
  | nil => simp [placeLe, nil_le_list]
  | cons s as ih =>
    cases b with
    | nil => simp [placeLe]
    | cons t bs =>
      rw [placeLe, cons_le_cons_list]
      by_cases heq : s = t
      · rw [if_pos heq, ih]
        simp [heq]
      · rw [if_neg heq, Text.le_iff]
        simp [heq, le_iff_lt_or_eq]

/-! ## Sorting by a key -/

section Keys

variable {α β : Type} [LinearOrder β] {le : α → α → Bool} (key : α → β)

theorem trans_of_key (hle : ∀ a b, le a b = true ↔ key a ≤ key b) (a b c : α)
    (hab : le a b = true) (hbc : le b c = true) : le a c = true :=
  (hle a c).2 (((hle a b).1 hab).trans ((hle b c).1 hbc))

theorem total_of_key (hle : ∀ a b, le a b = true ↔ key a ≤ key b) (a b : α) :
    (le a b || le b a) = true := by
  rw [Bool.or_eq_true, hle, hle]
  exact le_total (key a) (key b)

/-- Sorting by a key puts the keys in order. -/
theorem pairwise_mergeSort_key (hle : ∀ a b, le a b = true ↔ key a ≤ key b) (xs : List α) :
    (xs.mergeSort le).Pairwise fun a b ↦ key a ≤ key b := by
  have hsorted : (xs.mergeSort le).Pairwise fun a b ↦ le a b = true :=
    List.pairwise_mergeSort (trans_of_key key hle) (total_of_key key hle) xs
  exact hsorted.imp fun {a b} hab ↦ (hle a b).1 hab

/-- Different keys come in strict order. -/
theorem pairwise_mergeSort_key_lt (hle : ∀ a b, le a b = true ↔ key a ≤ key b) {xs : List α}
    (hkeys : (xs.map key).Nodup) : (xs.mergeSort le).Pairwise fun a b ↦ key a < key b := by
  have hdifferent : (xs.mergeSort le).Pairwise fun a b ↦ key a ≠ key b :=
    List.pairwise_map.1 (((List.mergeSort_perm xs le).map key).nodup_iff.2 hkeys)
  exact (pairwise_mergeSort_key key hle xs).imp₂ (fun {_ _} ↦ lt_of_le_of_ne) hdifferent

/-- Entries in the order of their different keys are determined by what they are. -/
theorem eq_of_perm_of_pairwise_key {xs ys : List α} (hperm : xs.Perm ys)
    (hkeys : (xs.map key).Nodup) (hxs : xs.Pairwise fun a b ↦ key a ≤ key b)
    (hys : ys.Pairwise fun a b ↦ key a ≤ key b) : xs = ys := by
  apply List.Perm.eq_of_pairwise _ hxs hys hperm
  intro a b ha hb hab hba
  exact List.inj_on_of_nodup_map hkeys ha (hperm.mem_iff.2 hb) (le_antisymm hab hba)

/-- Entries with the same key stay in the order in which they are given. -/
theorem filter_mergeSort_key [DecidableEq β] (hle : ∀ a b, le a b = true ↔ key a ≤ key b)
    (xs : List α) (k : β) :
    (xs.mergeSort le).filter (fun a ↦ key a = k) = xs.filter fun a ↦ key a = k := by
  have htied : (xs.filter fun a ↦ key a = k).Pairwise fun a b ↦ le a b = true := by
    apply List.pairwise_of_forall_mem_list
    intro a ha b hb
    rw [hle, of_decide_eq_true (List.mem_filter.1 ha).2, of_decide_eq_true (List.mem_filter.1 hb).2]
  have hsublist : (xs.filter fun a ↦ key a = k).Sublist
      ((xs.mergeSort le).filter fun a ↦ key a = k) := by
    have hkept := (List.sublist_mergeSort (trans_of_key key hle) (total_of_key key hle) htied
      List.filter_sublist).filter fun a ↦ decide (key a = k)
    rwa [List.filter_filter, List.filter_congr fun _ _ ↦ Bool.and_self _] at hkept
  exact (hsublist.eq_of_length ((List.mergeSort_perm xs le).filter _).length_eq.symm).symm

/-- What holds between entries in the order in which they are given still holds between entries with the
same key. -/
theorem pairwise_mergeSort_stable (hle : ∀ a b, le a b = true ↔ key a ≤ key b) {R : α → α → Prop}
    {xs : List α} (h : xs.Pairwise R) :
    (xs.mergeSort le).Pairwise fun a b ↦ key a < key b ∨ key a = key b ∧ R a b := by
  apply List.pairwise_iff_forall_sublist.2
  intro a b hab
  have hkeys : key a ≤ key b :=
    List.pairwise_iff_forall_sublist.1 (pairwise_mergeSort_key key hle xs) hab
  rcases hkeys.lt_or_eq with hlt | heq
  · exact .inl hlt
  · have htied := hab.filter fun c ↦ decide (key c = key b)
    rw [filter_mergeSort_key key hle, List.filter_eq_self.2 (by simp [heq])] at htied
    exact .inr ⟨heq, List.pairwise_iff_forall_sublist.1 h (htied.trans List.filter_sublist)⟩

/-- Entries in the order of their keys are determined by what they are for each key. -/
theorem eq_of_filter_key [DecidableEq β] {xs ys : List α}
    (hxs : xs.Pairwise fun a b ↦ key a ≤ key b) (hys : ys.Pairwise fun a b ↦ key a ≤ key b)
    (h : ∀ k, (xs.filter fun a ↦ key a = k) = ys.filter fun a ↦ key a = k) : xs = ys := by
  have hmem {xs ys : List α} (h : ∀ k, (xs.filter fun a ↦ key a = k) = ys.filter fun a ↦ key a = k)
      {a : α} (ha : a ∈ xs) : a ∈ ys := by
    have hkept : a ∈ xs.filter fun b ↦ key b = key a := List.mem_filter.2 ⟨ha, by simp⟩
    rw [h] at hkept
    exact (List.mem_filter.1 hkept).1
  have hleast {a : α} {as : List α} (has : (a :: as).Pairwise fun a b ↦ key a ≤ key b) {b : α}
      (hb : b ∈ a :: as) : key a ≤ key b := by
    rcases List.mem_cons.1 hb with rfl | hb
    · exact le_refl _
    · exact List.rel_of_pairwise_cons has hb
  induction xs generalizing ys with
  | nil =>
    apply Eq.symm
    apply List.eq_nil_iff_forall_not_mem.2
    exact fun a ha ↦ List.not_mem_nil (hmem (fun k ↦ (h k).symm) ha)
  | cons x xs ih =>
    cases ys with
    | nil => exact absurd (hmem h List.mem_cons_self) List.not_mem_nil
    | cons y ys =>
      -- The first entry of either list has the least key of both.
      have hkey : key x = key y :=
        le_antisymm (hleast hxs (hmem (fun k ↦ (h k).symm) List.mem_cons_self))
          (hleast hys (hmem h List.mem_cons_self))
      have hfirst := h (key y)
      rw [List.filter_cons_of_pos (by simpa using hkey), List.filter_cons_of_pos (by simp)] at hfirst
      obtain rfl := (List.cons.inj hfirst).1
      congr 1
      apply ih hxs.of_cons hys.of_cons
      intro k
      have hk := h k
      rw [List.filter_cons, List.filter_cons] at hk
      split at hk
      · exact (List.cons.inj hk).2
      · exact hk

end Keys

end ClassScript
