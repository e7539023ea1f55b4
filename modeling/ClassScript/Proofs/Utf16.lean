import ClassScript.Text.Utf16
import Mathlib.Data.List.Chain

/-!
# Texts and their UTF-16 units

Joining surrogates that spell a pair changes no units, and leaves no such surrogates. A text in
which no high surrogate stands before a low one is determined by its units, so joining is the one
way to read units as code points. Unicode strings are such texts.
-/

namespace ClassScript

namespace CodePoint

theorem isHigh_iff {c : CodePoint} : c.isHigh = true ↔ 0xD800 ≤ c.val ∧ c.val < 0xDC00 := by
  simp [isHigh]

theorem isLow_iff {c : CodePoint} : c.isLow = true ↔ 0xDC00 ≤ c.val ∧ c.val < 0xE000 := by
  simp [isLow]

theorem units_of_lt {c : CodePoint} (h : c.val < 0x10000) : c.units = [c.val] := if_pos h

theorem units_of_le {c : CodePoint} (h : 0x10000 ≤ c.val) :
    c.units = [0xD800 + (c.val - 0x10000) / 0x400, 0xDC00 + (c.val - 0x10000) % 0x400] :=
  if_neg (Nat.not_lt.2 h)

/-- The code point of a pair has ten bits from each half. -/
theorem val_ofPair {high low : CodePoint} (hhigh : high.isHigh = true) (hlow : low.isLow = true) :
    (ofPair high low).val = 0x10000 + (high.val - 0xD800) * 0x400 + (low.val - 0xDC00) := by
  rw [isHigh_iff] at hhigh
  rw [isLow_iff] at hlow
  exact Nat.mod_eq_of_lt (by omega)

theorem le_ofPair {high low : CodePoint} (hhigh : high.isHigh = true) (hlow : low.isLow = true) :
    0x10000 ≤ (ofPair high low).val := by
  rw [val_ofPair hhigh hlow]
  omega

/-- The units of the code point of a pair are those of its halves. -/
theorem units_ofPair {high low : CodePoint} (hhigh : high.isHigh = true) (hlow : low.isLow = true) :
    (ofPair high low).units = high.units ++ low.units := by
  rw [units_of_le (le_ofPair hhigh hlow), val_ofPair hhigh hlow]
  rw [isHigh_iff] at hhigh
  rw [isLow_iff] at hlow
  rw [units_of_lt (by omega), units_of_lt (by omega)]
  simp only [List.cons_append, List.nil_append, List.cons.injEq, and_true]
  omega

/-- The first unit of a code point tells whether there is a second one: only then it is a high
surrogate that stands for no code point of its own. -/
theorem units_cases (c : CodePoint) :
    (c.val < 0x10000 ∧ c.units = [c.val]) ∨
      ∃ high low, (0xD800 ≤ high ∧ high < 0xDC00) ∧ (0xDC00 ≤ low ∧ low < 0xE000) ∧
        c.units = [high, low] ∧ c.val = 0x10000 + (high - 0xD800) * 0x400 + (low - 0xDC00) := by
  by_cases h : c.val < 0x10000
  · exact .inl ⟨h, units_of_lt h⟩
  · have hbound := c.isLt
    exact .inr ⟨_, _, by omega, by omega, units_of_le (by omega), by omega⟩

theorem units_ne_nil (c : CodePoint) : c.units ≠ [] := by
  rcases c.units_cases with ⟨-, hc⟩ | ⟨_, _, -, -, hc, -⟩
  · rw [hc]
    exact List.cons_ne_nil _ _
  · rw [hc]
    exact List.cons_ne_nil _ _

theorem lt_of_mem_units {c : CodePoint} {unit : Nat} (h : unit ∈ c.units) : unit < 0x10000 := by
  rcases c.units_cases with ⟨hlt, hc⟩ | ⟨high, low, hhigh, hlow, hc, -⟩
  · rw [hc, List.mem_singleton] at h
    omega
  · rw [hc, List.mem_pair] at h
    omega

/-- No character is half of a pair. -/
theorem not_isSurrogate_ofChar (c : Char) : (ofChar c).isHigh = false ∧ (ofChar c).isLow = false := by
  have hvalid := c.valid
  simp only [UInt32.isValidChar, Nat.isValidChar] at hvalid
  have hval : (ofChar c).val = c.val.toNat := rfl
  rw [Bool.eq_false_iff, Bool.eq_false_iff, Ne, Ne, isHigh_iff, isLow_iff]
  omega

end CodePoint

namespace Text

/-- No high surrogate stands directly before a low one. -/
def Unpaired (t : Text) : Prop := t.IsChain fun c d ↦ ¬(c.isHigh = true ∧ d.isLow = true)

theorem units_cons (c : CodePoint) (t : Text) : units (c :: t) = c.units ++ units t :=
  List.flatMap_cons

/-- Joining pairs leaves the units as they are. -/
theorem units_joinPairs (t : Text) : (joinPairs t).units = t.units := by
  fun_induction joinPairs t with
  | case1 => rfl
  | case2 => rfl
  | case3 c d rest h ih =>
    rw [Bool.and_eq_true] at h
    rw [units_cons, ih, CodePoint.units_ofPair h.1 h.2, units_cons, units_cons, List.append_assoc]
  | case4 c d rest h ih => rw [units_cons, ih, ← units_cons]

/-- Joining keeps the first code point or makes it one that is no surrogate. -/
theorem head?_joinPairs {t : Text} {c : CodePoint} (h : c ∈ (joinPairs t).head?) :
    t.head? = some c ∨ 0x10000 ≤ c.val := by
  fun_cases joinPairs t with
  | case1 => cases h
  | case2 => exact .inl h
  | case3 c d rest hpair =>
    rw [joinPairs, if_pos hpair] at h
    rw [Bool.and_eq_true] at hpair
    rw [← Option.some.inj h]
    exact .inr (CodePoint.le_ofPair hpair.1 hpair.2)
  | case4 c d rest hpair =>
    rw [joinPairs, if_neg hpair] at h
    exact .inl h

/-- Once pairs are joined, no high half stands before a low half. -/
theorem unpaired_joinPairs (t : Text) : (joinPairs t).Unpaired := by
  fun_induction joinPairs t with
  | case1 => exact List.IsChain.nil
  | case2 c => exact List.IsChain.singleton c
  | case3 c d rest h ih =>
    rw [Bool.and_eq_true] at h
    refine List.isChain_cons.2 ⟨?_, ih⟩
    rintro next - ⟨hhigh, -⟩
    have hle := CodePoint.le_ofPair h.1 h.2
    rw [CodePoint.isHigh_iff] at hhigh
    omega
  | case4 c d rest h ih =>
    refine List.isChain_cons.2 ⟨?_, ih⟩
    rintro next hnext ⟨hhigh, hlow⟩
    rcases head?_joinPairs hnext with hhead | hle
    · cases hhead
      exact h (by rw [hhigh, hlow]; rfl)
    · rw [CodePoint.isLow_iff] at hlow
      omega

/-- A high surrogate of its own cannot be taken for the first half of a pair: what follows it in an
unpaired text does not start with a low one. -/
theorem Unpaired.units_ne {c : CodePoint} {t : Text} (h : Unpaired (c :: t))
    (hc : 0xD800 ≤ c.val ∧ c.val < 0xDC00) {low : Nat} (hlow : 0xDC00 ≤ low ∧ low < 0xE000)
    (us : List Nat) : t.units ≠ low :: us := by
  intro hunits
  cases t with
  | nil => cases hunits
  | cons d rest =>
    rw [units_cons] at hunits
    rcases d.units_cases with ⟨-, hd⟩ | ⟨high, low', hhigh, -, hd, -⟩
    · rw [hd, List.singleton_append, List.cons.injEq] at hunits
      have hpair := (List.isChain_cons_cons.1 h).1
      rw [CodePoint.isHigh_iff, CodePoint.isLow_iff] at hpair
      omega
    · rw [hd, List.cons_append, List.cons.injEq] at hunits
      omega

theorem Unpaired.tail {c : CodePoint} {t : Text} (h : Unpaired (c :: t)) : Unpaired t :=
  (List.isChain_cons.1 h).2

/-- A text that holds no pair is determined by its units. -/
theorem Unpaired.eq_of_units_eq {s t : Text} (hs : s.Unpaired) (ht : t.Unpaired)
    (h : s.units = t.units) : s = t := by
  induction s generalizing t with
  | nil =>
    cases t with
    | nil => rfl
    | cons d t =>
      rw [units_cons] at h
      exact absurd (List.append_eq_nil_iff.1 h.symm).1 d.units_ne_nil
  | cons c s ih =>
    cases t with
    | nil =>
      rw [units_cons] at h
      exact absurd (List.append_eq_nil_iff.1 h).1 c.units_ne_nil
    | cons d t =>
      rw [units_cons, units_cons] at h
      rcases c.units_cases with ⟨-, hc⟩ | ⟨high, low, hhigh, hlow, hc, hcval⟩
      · rcases d.units_cases with ⟨-, hd⟩ | ⟨high, low, hhigh, hlow, hd, -⟩
        · rw [hc, hd, List.singleton_append, List.singleton_append, List.cons.injEq] at h
          rw [Fin.ext h.1, ih hs.tail ht.tail h.2]
        · rw [hc, hd, List.singleton_append, List.cons_append, List.cons.injEq] at h
          exact absurd h.2 (hs.units_ne (by omega) hlow _)
      · rcases d.units_cases with ⟨-, hd⟩ | ⟨high', low', hhigh', hlow', hd, hdval⟩
        · rw [hc, hd, List.singleton_append, List.cons_append, List.cons.injEq] at h
          exact absurd h.2.symm (ht.units_ne (by omega) hlow _)
        · rw [hc, hd] at h
          simp only [List.cons_append, List.nil_append, List.cons.injEq] at h
          have hval : c = d := Fin.ext (by omega)
          rw [hval, ih hs.tail ht.tail h.2.2]

theorem unpaired_ofChars (cs : List Char) : (ofChars cs).Unpaired := by
  induction cs with
  | nil => exact List.IsChain.nil
  | cons c rest ih =>
    refine List.isChain_cons.2 ⟨?_, ih⟩
    rintro next - ⟨hhigh, -⟩
    rw [(CodePoint.not_isSurrogate_ofChar c).1] at hhigh
    cases hhigh

end Text

end ClassScript
