import ClassScript.Text

/-!
# Reading integers

An integer in base ten or sixteen may have blanks around it and a sign in front. In base sixteen a
`0x` may follow the sign. Digits are those of any script, with `a` to `f` in either case, and a single
underscore may stand between two digits or after the `0x`.
-/

namespace ClassScript

namespace CodePoint

/-- Unicode 14 has a run of ten digits for each script that writes decimal numbers; these are the zeros. -/
def zeros : List Nat :=
  [0x30, 0x660, 0x6F0, 0x7C0, 0x966, 0x9E6, 0xA66, 0xAE6, 0xB66, 0xBE6, 0xC66, 0xCE6, 0xD66,
    0xDE6, 0xE50, 0xED0, 0xF20, 0x1040, 0x1090, 0x17E0, 0x1810, 0x1946, 0x19D0, 0x1A80, 0x1A90,
    0x1B50, 0x1BB0, 0x1C40, 0x1C50, 0xA620, 0xA8D0, 0xA900, 0xA9D0, 0xA9F0, 0xAA50, 0xABF0,
    0xFF10, 0x104A0, 0x10D30, 0x11066, 0x110F0, 0x11136, 0x111D0, 0x112F0, 0x11450, 0x114D0,
    0x11650, 0x116C0, 0x11730, 0x118E0, 0x11950, 0x11C50, 0x11D50, 0x11DA0, 0x16A60, 0x16AC0,
    0x16B50, 0x1D7CE, 0x1D7D8, 0x1D7E2, 0x1D7EC, 0x1D7F6, 0x1E140, 0x1E2F0, 0x1E950, 0x1FBF0]

/-- The value of a decimal digit of any script. -/
def decimalValue? (c : CodePoint) : Option Nat :=
  (zeros.find? fun z ↦ z ≤ c.val && c.val < z + 10).map (c.val - ·)

def digitValue? (c : CodePoint) : Option Nat :=
  if 0x61 ≤ c.val ∧ c.val ≤ 0x66 then some (c.val - 0x61 + 10)
  else if 0x41 ≤ c.val ∧ c.val ≤ 0x46 then some (c.val - 0x41 + 10)
  else c.decimalValue?

end CodePoint

namespace Numeral

/-- The blanks allowed around a numeral; the information separators are not among them. -/
def isBlank (c : CodePoint) : Bool := c.isBlank && !(0x1C ≤ c.val && c.val ≤ 0x1F)

/-- Reads digits and underscores to the end. Neither an underscore nor the end may
come unless a digit has just been read. -/
def digits? (base : Nat) : (value : Nat) → (afterDigit : Bool) → Text → Option Nat
  | value, afterDigit, [] => if afterDigit then some value else none
  | value, afterDigit, c :: rest =>
    if c.val = 0x5F then if afterDigit then digits? base value false rest else none
    else
      match c.digitValue? with
      | some d => if d < base then digits? base (value * base + d) true rest else none
      | none => none

/-- Drops the `0x` of base sixteen and one underscore after it. -/
def dropRadix (base : Nat) : Text → Text
  | c :: d :: rest =>
    if base = 16 ∧ c.val = 0x30 ∧ (d.val = 0x78 ∨ d.val = 0x58) then
      match rest with
      | e :: rest' => if e.val = 0x5F then rest' else rest
      | [] => []
    else c :: d :: rest
  | short => short

def natural? (base : Nat) (t : Text) : Option Nat := digits? base 0 false (dropRadix base t)

def read? (base : Nat) (t : Text) : Option Int :=
  let inner := ((t.dropWhile isBlank).reverse.dropWhile isBlank).reverse
  match inner with
  | [] => none
  | c :: rest =>
    if c.val = 0x2D then (natural? base rest).map fun n ↦ -(n : Int)
    else if c.val = 0x2B then (natural? base rest).map fun n ↦ (n : Int)
    else (natural? base inner).map fun n ↦ (n : Int)

end Numeral

end ClassScript
