import ClassScript.Path.Match

/-!
# What patterns match

A pattern is matched by trying, in a fixed order, all that its parts can take from a path. Whether
there is a match does not depend on the order: `Takes` says which texts the parts of a segment stand
for, and `Continues` how a path may go on after its first name. The search finds a match just when
there is one in this sense.
-/

namespace ClassScript.Path

/-! ## What a segment takes -/

theorem mem_remainders {p : CodePoint → Bool} {t u : Text} :
    u ∈ remainders p t ↔ ∃ s, t = s ++ u ∧ ∀ c ∈ s, p c = true := by
  induction t with
  | nil =>
    rw [remainders, List.mem_singleton]
    constructor
    · rintro rfl
      exact ⟨[], rfl, List.forall_mem_nil _⟩
    · rintro ⟨s, hs, -⟩
      exact (List.append_eq_nil_iff.1 hs.symm).2
  | cons c rest ih =>
    have hwhole : ∃ s, c :: rest = s ++ c :: rest ∧ ∀ d ∈ s, p d = true :=
      ⟨[], rfl, List.forall_mem_nil _⟩
    rw [remainders]
    split
    · next hc =>
      rw [List.mem_append, List.mem_singleton, ih]
      constructor
      · rintro (⟨s, rfl, hs⟩ | rfl)
        · exact ⟨c :: s, rfl, List.forall_mem_cons.2 ⟨hc, hs⟩⟩
        · exact hwhole
      · rintro ⟨s, hs, hall⟩
        rcases List.cons_eq_append_iff.1 hs with ⟨-, rfl⟩ | ⟨s, rfl, rfl⟩
        · exact .inr rfl
        · exact .inl ⟨s, rfl, (List.forall_mem_cons.1 hall).2⟩
    · next hc =>
      rw [List.mem_singleton]
      constructor
      · rintro rfl
        exact hwhole
      · rintro ⟨s, hs, hall⟩
        rcases List.cons_eq_append_iff.1 hs with ⟨-, rfl⟩ | ⟨s, rfl, rfl⟩
        · rfl
        · exact absurd (List.forall_mem_cons.1 hall).1 hc

/-- All but the last of the remainders are those after at least one character. -/
theorem mem_dropLast_remainders {p : CodePoint → Bool} {t u : Text} :
    u ∈ (remainders p t).dropLast ↔ ∃ s, s ≠ [] ∧ t = s ++ u ∧ ∀ c ∈ s, p c = true := by
  cases t with
  | nil =>
    refine iff_of_false List.not_mem_nil ?_
    rintro ⟨s, hne, hs, -⟩
    exact hne (List.append_eq_nil_iff.1 hs.symm).1
  | cons c rest =>
    have hlast : (remainders p (c :: rest)).dropLast = if p c then remainders p rest else [] := by
      rw [remainders]
      split
      · rw [List.dropLast_concat]
      · rfl
    rw [hlast]
    split
    · next hc =>
      rw [mem_remainders]
      constructor
      · rintro ⟨s, rfl, hs⟩
        exact ⟨c :: s, List.cons_ne_nil c s, rfl, List.forall_mem_cons.2 ⟨hc, hs⟩⟩
      · rintro ⟨s, hne, hs, hall⟩
        rcases List.cons_eq_append_iff.1 hs with ⟨rfl, -⟩ | ⟨s, rfl, rfl⟩
        · exact absurd rfl hne
        · exact ⟨s, rfl, (List.forall_mem_cons.1 hall).2⟩
    · next hc =>
      refine iff_of_false List.not_mem_nil ?_
      rintro ⟨s, hne, hs, hall⟩
      rcases List.cons_eq_append_iff.1 hs with ⟨rfl, -⟩ | ⟨s, rfl, rfl⟩
      · exact hne rfl
      · exact hc (List.forall_mem_cons.1 hall).1

theorem forall_bne_iff {d : CodePoint} {s : Text} : (∀ c ∈ s, (c != d) = true) ↔ d ∉ s := by
  simp only [bne_iff_ne]
  exact ⟨fun h hmem ↦ h d hmem rfl, fun h c hc heq ↦ h (heq ▸ hc)⟩

def Item.Takes : Item → Text → Prop
  | many, s => slash ∉ s
  | one, s => ∃ c, s = [c] ∧ c ≠ slash
  | literal d, s => s = [d]
  | set negated ranges, s =>
    ∃ c, s = [c] ∧ ranges.any (fun range ↦ range.1 ≤ c && c ≤ range.2) ≠ negated

theorem Item.mem_remainders {item : Item} {t u : Text} :
    u ∈ item.remainders t ↔ ∃ s, t = s ++ u ∧ item.Takes s := by
  -- All items but one take a single character.
  have hsingle (P : CodePoint → Prop) : (∃ s, t = s ++ u ∧ ∃ c, s = [c] ∧ P c) ↔
      ∃ c, t = c :: u ∧ P c := by
    constructor
    · rintro ⟨s, rfl, c, rfl, hc⟩
      exact ⟨c, rfl, hc⟩
    · rintro ⟨c, rfl, hc⟩
      exact ⟨[c], rfl, c, rfl, hc⟩
  cases item with
  | many =>
    simp only [remainders, Path.mem_remainders, forall_bne_iff, Takes]
  | one =>
    simp only [Takes, hsingle]
    cases t with
    | nil => simp [remainders]
    | cons c rest =>
      by_cases hc : c = slash
      · simp [remainders, hc, and_assoc]
      · simp [remainders, hc, and_assoc, eq_comm]
  | literal d =>
    have htakes : (∃ s, t = s ++ u ∧ (literal d).Takes s) ↔ t = d :: u := by simp [Takes]
    rw [htakes]
    cases t with
    | nil => simp [remainders]
    | cons c rest =>
      by_cases hc : c = d
      · simp [remainders, hc, eq_comm]
      · simp [remainders, hc]
  | set negated ranges =>
    simp only [Takes, hsingle]
    cases t with
    | nil => simp [remainders]
    | cons c rest =>
      by_cases hc : ranges.any (fun range ↦ range.1 ≤ c && c ≤ range.2) = negated
      · simp only [remainders, if_pos hc, List.not_mem_nil, List.cons.injEq, false_iff]
        rintro ⟨d, ⟨rfl, -⟩, hd⟩
        exact hd hc
      · simp only [remainders, if_neg hc, List.mem_singleton, List.cons.injEq]
        exact ⟨fun h ↦ ⟨c, ⟨rfl, h.symm⟩, hc⟩, fun ⟨_, ⟨_, h⟩, _⟩ ↦ h.symm⟩

/-- Parts of a segment stand for a text, one after the other. -/
def Takes : List Item → Text → Prop
  | [], s => s = []
  | item :: items, s => ∃ a b, s = a ++ b ∧ item.Takes a ∧ Takes items b

/-- What is left behind a list of items is what follows a text that they take. -/
theorem mem_globRemainders {items : List Item} {t u : Text} :
    u ∈ globRemainders items t ↔ ∃ s, t = s ++ u ∧ Takes items s := by
  induction items generalizing t with
  | nil => simp [globRemainders, Takes, eq_comm]
  | cons item items ih =>
    simp only [globRemainders, List.mem_flatMap, Item.mem_remainders, ih, Takes]
    constructor
    · rintro ⟨_, ⟨a, rfl, ha⟩, b, rfl, hb⟩
      exact ⟨a ++ b, (List.append_assoc a b u).symm, a, b, rfl, ha, hb⟩
    · rintro ⟨_, rfl, a, b, rfl, ha, hb⟩
      exact ⟨b ++ u, ⟨a, List.append_assoc a b u, ha⟩, b, rfl, hb⟩

def Segment.Takes : Segment → Text → Prop
  | deep, _ => False
  | name, s => Path.Takes [.one, .many] s
  | glob items, s => Path.Takes items s

/-- What is left behind a segment is what follows a text that the segment takes. -/
theorem Segment.mem_remainders {segment : Segment} {t u : Text} :
    u ∈ segment.remainders t ↔ ∃ s, t = s ++ u ∧ segment.Takes s := by
  cases segment with
  | deep => simp [remainders, Takes]
  | name => exact mem_globRemainders
  | glob items => exact mem_globRemainders

/-- A text without the characters that have a meaning in a segment. -/
def IsPlain (t : Text) : Prop := ∀ c ∈ t, c ∉ Text.ofString "*?[\\"

instance decidableIsPlain (t : Text) : Decidable (IsPlain t) := List.decidableBAll _ t

theorem items_of_isPlain {t : Text} (h : IsPlain t) : items t = .ok (t.map .literal) := by
  induction t with
  | nil => rw [items, List.map_nil]
  | cons c rest ih =>
    obtain ⟨hc, hrest⟩ := List.forall_mem_cons.1 h
    have hmeaning (d : Char) (hd : CodePoint.ofChar d ∈ Text.ofString "*?[\\") :
        c.val ≠ d.toNat := fun heq ↦ hc (by rwa [show c = CodePoint.ofChar d from Fin.ext heq])
    have hbackslash : c.val ≠ 0x5C := hmeaning '\\' (by decide)
    have hstar : c.val ≠ 0x2A := hmeaning '*' (by decide)
    have hquestion : c.val ≠ 0x3F := hmeaning '?' (by decide)
    have hbracket : c.val ≠ 0x5B := hmeaning '[' (by decide)
    rw [items.eq_def]
    dsimp only
    rw [if_neg hbackslash, if_neg hstar, if_neg hquestion, if_neg hbracket, ih hrest]
    rfl

theorem segment_of_isPlain {t : Text} (h : IsPlain t) : segment t = .ok (.glob (t.map .literal)) := by
  have hne (pattern : Text) (hpattern : CodePoint.ofChar '*' ∈ pattern) : t ≠ pattern :=
    fun heq ↦ h _ (heq ▸ hpattern) (by decide)
  rw [segment, if_neg (hne doubleStar (by decide)), if_neg (hne star (by decide)), items_of_isPlain h]
  rfl

theorem reversed?_map_literal (t : Text) : (Segment.glob (t.map .literal)).reversed? = none := by
  rw [Segment.reversed?, List.findSome?_eq_none_iff, List.forall_mem_map]
  exact fun _ _ ↦ rfl

/-- Only two stars stand for directories at any depth. -/
theorem segment_eq_deep_iff {t : Text} : segment t = .ok .deep ↔ t = doubleStar := by
  unfold segment
  split
  · next h => exact iff_of_true rfl h
  · next h =>
    refine iff_of_false ?_ h
    split
    · simp
    · cases items t <;> simp [bind, Except.bind, pure, Except.pure]

theorem takes_map_literal {t s : Text} : Takes (t.map .literal) s ↔ s = t := by
  induction t generalizing s with
  | nil => rfl
  | cons c rest ih => simp [Takes, Item.Takes, ih]

/-! ## How a path goes on -/

/-- Skipping directories skips nothing, or a slash and some code points without a line feed. -/
theorem mem_afterSubdirectories {t u : Text} :
    u ∈ afterSubdirectories t ↔ u = t ∨ ∃ s, s ≠ [] ∧ t = slash :: (s ++ u) ∧ lineFeed ∉ s := by
  cases t with
  | nil => simp [afterSubdirectories]
  | cons c rest =>
    rw [afterSubdirectories]
    split
    · next hc =>
      rw [List.mem_append, List.mem_singleton, mem_dropLast_remainders, or_comm, hc]
      simp only [forall_bne_iff, List.cons.injEq, true_and]
    · next hc => simp [hc]

/-- A path, from the end of a name on, goes on as the segments say: each of them stands for one more
name, or for any directories without a line feed. At the end of the segments the path ends too,
perhaps with a line feed, or it goes on inside a directory. -/
inductive Continues : List Segment → Text → Prop where
  | ended : Continues [] []
  | broken : Continues [] [lineFeed]
  | inside (t : Text) : Continues [] (slash :: t)
  | anywhere (t : Text) : Continues [.deep] (slash :: t)
  | here {more : List Segment} {t : Text} (hmore : more ≠ []) (h : Continues more t) :
    Continues (.deep :: more) t
  | deeper {more : List Segment} {s t : Text} (hmore : more ≠ []) (hne : s ≠ [])
    (hs : lineFeed ∉ s) (h : Continues more t) : Continues (.deep :: more) (slash :: (s ++ t))
  | named {segment : Segment} {more : List Segment} {s t : Text} (hs : segment.Takes s)
    (h : Continues more t) : Continues (segment :: more) (slash :: (s ++ t))

/-- A match ends at the end of a path, before a last line feed or before a slash. -/
theorem continues_nil_iff {t : Text} :
    Continues [] t ↔ t = [] ∨ t = [lineFeed] ∨ t.head? = some slash := by
  constructor
  · intro h
    cases h with
    | ended => exact .inl rfl
    | broken => exact .inr (.inl rfl)
    | inside t => exact .inr (.inr rfl)
  · rintro (rfl | rfl | h)
    · exact .ended
    · exact .broken
    · obtain ⟨t, rfl⟩ := List.head?_eq_some_iff.1 h
      exact .inside t

theorem isSome_ending_iff {t : Text} : (ending t).isSome = true ↔ Continues [] t := by
  rw [continues_nil_iff]
  cases t with
  | nil => simp [ending]
  | cons c rest =>
    rw [ending]
    by_cases hslash : c = slash
    · simp [hslash]
    · by_cases hfeed : c = lineFeed ∧ rest = []
      · rw [if_neg hslash, if_pos hfeed]
        simp [hfeed]
      · rw [if_neg hslash, if_neg hfeed]
        simp [hslash, hfeed]

theorem continues_deep_iff {t : Text} : Continues [.deep] t ↔ t.head? = some slash := by
  constructor
  · intro h
    cases h with
    | anywhere t => rfl
    | here hmore h => exact absurd rfl hmore
    | deeper hmore hne hs h => exact absurd rfl hmore
    | named hs h => exact hs.elim
  · intro h
    obtain ⟨rest, rfl⟩ := List.head?_eq_some_iff.1 h
    exact .anywhere rest

/-- Two stars stand for no directory or for any stretch behind a slash. -/
theorem continues_deep_cons_iff {more : List Segment} (hmore : more ≠ []) {t : Text} :
    Continues (.deep :: more) t ↔
      Continues more t ∨ ∃ s u, t = slash :: (s ++ u) ∧ s ≠ [] ∧ lineFeed ∉ s ∧ Continues more u := by
  constructor
  · intro h
    cases h with
    | anywhere t => exact absurd rfl hmore
    | here _ h => exact .inl h
    | deeper _ hne hs h => exact .inr ⟨_, _, rfl, hne, hs, h⟩
    | named hs h => exact hs.elim
  · rintro (h | ⟨s, u, rfl, hne, hs, h⟩)
    · exact .here hmore h
    · exact .deeper hmore hne hs h

/-- Any other segment stands behind a slash. -/
theorem continues_cons_iff {segment : Segment} (hsegment : segment ≠ .deep) {more : List Segment}
    {t : Text} : Continues (segment :: more) t ↔
      ∃ s u, t = slash :: (s ++ u) ∧ segment.Takes s ∧ Continues more u := by
  constructor
  · intro h
    cases h with
    | anywhere t => exact absurd rfl hsegment
    | here _ h => exact absurd rfl hsegment
    | deeper _ hne hs h => exact absurd rfl hsegment
    | named hs h => exact ⟨_, _, rfl, hs, h⟩
  · rintro ⟨s, u, rfl, hs, h⟩
    exact .named hs h

/-- A search over what a segment leaves succeeds if it does for one split. -/
theorem isSome_findSome?_remainders {segment : Segment} {search : Text → Option Strength}
    {Found : Text → Prop} (hsearch : ∀ {u}, (search u).isSome = true ↔ Found u) {t : Text} :
    ((segment.remainders t).findSome? search).isSome = true ↔
      ∃ s u, t = s ++ u ∧ segment.Takes s ∧ Found u := by
  rw [List.findSome?_isSome_iff]
  simp only [Segment.mem_remainders, hsearch]
  constructor
  · rintro ⟨u, ⟨s, ht, hs⟩, hu⟩
    exact ⟨s, u, ht, hs, hu⟩
  · rintro ⟨s, u, ht, hs, hu⟩
    exact ⟨u, ⟨s, ht, hs⟩, hu⟩

/-- The search goes through the remainders in order, but finds a match just when there is one. -/
theorem isSome_matchRest_iff {strength : Strength} {segments : List Segment} {t : Text} :
    (matchRest strength segments t).isSome = true ↔ Continues segments t := by
  induction segments generalizing t with
  | nil => exact isSome_ending_iff
  | cons segment more ih =>
    by_cases hsegment : segment = .deep
    · subst hsegment
      by_cases hmore : more = []
      · subst hmore
        rw [continues_deep_iff, matchRest]
        split <;> simp [*]
      · rw [continues_deep_cons_iff hmore, matchRest.eq_3 _ _ _ hmore, List.findSome?_isSome_iff]
        simp only [mem_afterSubdirectories, ih]
        constructor
        · rintro ⟨u, rfl | ⟨s, hne, rfl, hs⟩, h⟩
          · exact .inl h
          · exact .inr ⟨s, u, rfl, hne, hs, h⟩
        · rintro (h | ⟨s, u, rfl, hne, hs, h⟩)
          · exact ⟨t, .inl rfl, h⟩
          · exact ⟨u, .inr ⟨s, hne, rfl, hs⟩, h⟩
    · rw [continues_cons_iff hsegment]
      have hdeep : segment = .deep → more = [] → False := fun h _ ↦ hsegment h
      cases t with
      | nil =>
        rw [matchRest.eq_5 _ _ _ hdeep hsegment]
        simp
      | cons c rest =>
        rw [matchRest.eq_4 _ _ _ _ _ hdeep hsegment]
        split
        · next hc =>
          rw [isSome_findSome?_remainders ih, hc]
          simp only [List.cons.injEq, true_and]
        · next hc => simp [hc]

namespace Pattern

/-- A pattern that starts with a name matches a path that starts with it and goes on as it says. -/
theorem isSome_strength?_iff {pattern : Pattern} {segment : Segment} {more : List Segment}
    (h : pattern.segments = segment :: more) (hsegment : segment ≠ .deep) {path : Text} :
    (pattern.strength? path).isSome = true ↔
      ∃ s u, path = s ++ u ∧ segment.Takes s ∧ Continues more u := by
  have hstrength : pattern.strength? path =
      (segment.remainders path).findSome? (matchRest pattern.deepStrength more) := by
    unfold strength?
    rw [h]
    cases segment with
    | deep => exact absurd rfl hsegment
    | name => rfl
    | glob items => rfl
  rw [hstrength]
  exact isSome_findSome?_remainders isSome_matchRest_iff

end Pattern

theorem isMatch_singleton {pattern : Pattern} (hpattern : pattern.negated = false) {path : Text} :
    isMatch [pattern] path = (pattern.strength? (relative path)).isSome := by
  unfold isMatch
  cases h : pattern.strength? (relative path) with
  | none => simp [h]
  | some strength => cases strength <;> simp [h, hpattern]

end ClassScript.Path
