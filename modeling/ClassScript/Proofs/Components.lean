import ClassScript.Text

/-!
# Paths and their components

A path is the text of its components with a separator between neighbours, and can be split into them
again.
-/

namespace ClassScript

namespace Text

theorem join_eq_intercalate (separator : Text) (pieces : List Text) :
    join separator pieces = separator.intercalate pieces := by
  fun_induction join separator pieces with
  | case1 => rfl
  | case2 t => simp
  | case3 t rest hrest ih =>
    obtain ⟨next, others, rfl⟩ := List.exists_cons_of_ne_nil hrest
    rw [ih, List.intercalate_cons_cons]

theorem splitAt_eq_splitOn (c : CodePoint) (t : Text) : splitAt c t = t.splitOn c := by
  induction t with
  | nil => rfl
  | cons d rest ih =>
    rw [splitAt, ih, List.splitOn, List.splitOn, List.splitOnP_cons_eq_if_modifyHead]
    by_cases h : d = c
    · simp [h]
    · rw [if_neg h, if_neg (by simpa using h)]
      cases hpieces : rest.splitOnP (· == c) with
      | nil => exact absurd hpieces (List.splitOnP_ne_nil _ _)
      | cons piece pieces => rfl

/-- Joining pieces loses nothing if the separator is in none of them. -/
theorem splitAt_join {c : CodePoint} {pieces : List Text} (hpieces : pieces ≠ [])
    (h : ∀ piece ∈ pieces, c ∉ piece) : splitAt c (join [c] pieces) = pieces := by
  rw [join_eq_intercalate, splitAt_eq_splitOn, List.splitOn_intercalate c h hpieces]

/-- A suffix without the separator lies in the last piece. -/
theorem suffix_append_cons_iff {c : CodePoint} {t : Text} (h : c ∉ t) (s u : Text) :
    t <:+ s ++ c :: u ↔ t <:+ u := by
  constructor
  · intro hsuffix
    rcases List.suffix_or_suffix_of_suffix hsuffix (List.suffix_append s (c :: u)) with hin | hover
    · rcases List.suffix_cons_iff.1 hin with rfl | hsuffix
      · exact absurd List.mem_cons_self h
      · exact hsuffix
    · exact absurd (hover.subset List.mem_cons_self) h
  · intro hsuffix
    exact (hsuffix.trans (List.suffix_cons c u)).trans (List.suffix_append s _)

/-- What has no separator in it is at the end of a path just when it is at the end of its last
component. -/
theorem isSuffixOf_join {c : CodePoint} {t : Text} (h : c ∉ t) {pieces : List Text}
    (hpieces : pieces ≠ []) :
    t.isSuffixOf (join [c] pieces) = pieces.getLast?.any fun piece ↦ t.isSuffixOf piece := by
  induction pieces with
  | nil => exact absurd rfl hpieces
  | cons piece rest ih =>
    cases rest with
    | nil => rfl
    | cons next others =>
      have hsuffix : t.isSuffixOf (join [c] (piece :: next :: others)) =
          t.isSuffixOf (join [c] (next :: others)) := by
        rw [Bool.eq_iff_iff, List.isSuffixOf_iff_suffix, List.isSuffixOf_iff_suffix, join,
          List.append_assoc, List.singleton_append, suffix_append_cons_iff h]
        exact List.cons_ne_nil next others
      rw [hsuffix, ih (List.cons_ne_nil next others), List.getLast?_cons_cons]

/-- Two separators in a row have an empty component between them. -/
theorem nil_mem_splitAt (c : CodePoint) (s t : Text) : [] ∈ splitAt c (s ++ c :: c :: t) := by
  have hsplit : List.splitOnP (· == c) (s ++ c :: c :: t) =
      List.splitOnP (· == c) s ++ List.splitOnP (· == c) (c :: t) :=
    List.splitOnP_append_cons s (c :: t) (beq_self_eq_true c)
  rw [splitAt_eq_splitOn, List.splitOn, hsplit]
  exact List.mem_append_right _ (by simp [List.splitOnP_cons_eq_if_modifyHead])

end Text

end ClassScript
