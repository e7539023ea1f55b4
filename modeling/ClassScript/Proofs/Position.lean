import ClassScript.Position
import Mathlib.Order.Defs.LinearOrder

/-!
# The order of positions

Positions are linearly ordered by line and then by column. The order that the comparisons of positions
use is this one, so the lemmas on linear orders apply to positions.
-/

namespace ClassScript.Position

instance : LinearOrder Position where
  le_refl a := by
    rw [le_def]
    omega
  le_trans a b c := by
    simp only [le_def]
    omega
  le_antisymm a b := by
    simp only [le_def]
    intro hab hba
    cases a
    cases b
    simp only [Position.mk.injEq]
    simp only at hab hba
    omega
  le_total a b := by
    simp only [le_def]
    omega
  lt_iff_le_not_ge a b := by
    simp only [le_def, lt_def]
    omega
  toDecidableLE := inferInstance
  toDecidableLT := inferInstance
  toDecidableEq := inferInstance

end ClassScript.Position
