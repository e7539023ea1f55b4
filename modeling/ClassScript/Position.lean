/-!
# Positions in a source text

A position is a line, counted from one, and a column, counted from zero in UTF-16 units. Only a line
feed ends a line. Positions are ordered by line and then by column, and the position of an offset
into a text is found by walking over the characters before it.
-/

namespace ClassScript

structure Position where
  line : Int
  column : Int
deriving DecidableEq, Repr, Inhabited

namespace Position

/-- The position of the first character. -/
def origin : Position := ⟨1, 0⟩

/-- By line, then by column. -/
def compare (a b : Position) : Ordering :=
  if a.line < b.line then .lt
  else if b.line < a.line then .gt
  else if a.column < b.column then .lt
  else if b.column < a.column then .gt
  else .eq

instance : LT Position := ⟨fun a b ↦ a.line < b.line ∨ (a.line = b.line ∧ a.column < b.column)⟩

instance : LE Position := ⟨fun a b ↦ a.line < b.line ∨ (a.line = b.line ∧ a.column ≤ b.column)⟩

instance (a b : Position) : Decidable (a < b) :=
  inferInstanceAs (Decidable (a.line < b.line ∨ (a.line = b.line ∧ a.column < b.column)))

instance (a b : Position) : Decidable (a ≤ b) :=
  inferInstanceAs (Decidable (a.line < b.line ∨ (a.line = b.line ∧ a.column ≤ b.column)))

theorem lt_def (a b : Position) :
    a < b ↔ a.line < b.line ∨ (a.line = b.line ∧ a.column < b.column) := Iff.rfl

theorem le_def (a b : Position) :
    a ≤ b ↔ a.line < b.line ∨ (a.line = b.line ∧ a.column ≤ b.column) := Iff.rfl

theorem compare_eq_lt {a b : Position} : a.compare b = .lt ↔ a < b := by
  simp only [compare, lt_def]
  grind

/-- How many UTF-16 units a character takes. -/
def width (c : Char) : Int := if c.toNat < 0x10000 then 1 else 2

/-- The position after a character that stands at `p`. -/
def advance (p : Position) (c : Char) : Position :=
  if c = '\n' then ⟨p.line + 1, 0⟩ else ⟨p.line, p.column + width c⟩

/-- The position after the given characters. -/
def after (p : Position) (cs : List Char) : Position := cs.foldl advance p

/-- The position of an offset, counted in characters. -/
def ofOffset (source : List Char) (offset : Nat) : Position := origin.after (source.take offset)

end Position

end ClassScript
