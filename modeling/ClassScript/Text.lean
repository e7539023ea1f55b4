/-!
# Texts as lists of code points

A string literal may spell one half of a surrogate pair on its own, so the names that a script
declares are not always Unicode strings. A text is a list of code points, surrogates included, and
every Unicode string is a text.

The blanks that surround a text do not count for what it says. They are the white space of Unicode and
the four information separators.
-/

namespace ClassScript

/-- A code point, surrogates included. -/
abbrev CodePoint := Fin 0x110000

abbrev Text := List CodePoint

namespace CodePoint

/-- Named here once for all decisions whether a code point is in a text. -/
instance : LawfulBEq CodePoint := inferInstance

def ofChar (c : Char) : CodePoint :=
  ⟨c.toNat, by
    have h := c.valid
    simp only [UInt32.isValidChar, Nat.isValidChar] at h
    simp only [Char.toNat]
    omega⟩

theorem ofChar_val (c : Char) : (ofChar c).val = c.toNat := rfl

theorem ofChar_inj {c d : Char} : ofChar c = ofChar d ↔ c = d := by
  rw [Fin.ext_iff, ofChar_val, ofChar_val, Char.toNat_inj]

/-- The first half of a surrogate pair. -/
def isHigh (c : CodePoint) : Bool := 0xD800 ≤ c.val && c.val < 0xDC00

/-- The second half of a surrogate pair. -/
def isLow (c : CodePoint) : Bool := 0xDC00 ≤ c.val && c.val < 0xE000

/-- The character of a code point that is not a surrogate. -/
def toChar? (c : CodePoint) : Option Char :=
  if h : c.val.isValidChar then some (Char.ofNatAux c.val h) else none

theorem toChar?_ofChar (c : Char) : (ofChar c).toChar? = some c := by
  rw [toChar?, dif_pos (show (ofChar c).val.isValidChar from c.valid)]
  rfl

def isBlank (c : CodePoint) : Bool :=
  let n := c.val
  (0x09 ≤ n && n ≤ 0x0D) || (0x1C ≤ n && n ≤ 0x20) || n == 0x85 || n == 0xA0 || n == 0x1680 ||
    (0x2000 ≤ n && n ≤ 0x200A) || n == 0x2028 || n == 0x2029 || n == 0x202F || n == 0x205F ||
    n == 0x3000

end CodePoint

namespace Text

def ofChars (cs : List Char) : Text := cs.map CodePoint.ofChar

def ofString (s : String) : Text := ofChars s.toList

instance : Coe String Text := ⟨ofString⟩

/-- The decimal digits of a number, with a leading minus sign for a negative one. -/
def ofInt (n : Int) : Text := ofString (toString n)

/-- The texts one after the other with a separator between neighbours. -/
def join (separator : Text) : List Text → Text
  | [] => []
  | [t] => t
  | t :: rest => t ++ separator ++ join separator rest

/-- Texts are ordered by their first different code point, a proper beginning coming first. -/
def le : Text → Text → Bool
  | [], _ => true
  | _ :: _, [] => false
  | c :: s, d :: t => if c.val < d.val then true else if d.val < c.val then false else le s t

/-- The pieces between the occurrences of a code point; one more than there are occurrences. -/
def splitAt (c : CodePoint) : Text → List Text
  | [] => [[]]
  | d :: rest =>
    if d = c then [] :: splitAt c rest
    else
      match splitAt c rest with
      | [] => [[d]]
      | piece :: pieces => (d :: piece) :: pieces

def trimLeft (t : Text) : Text := t.dropWhile CodePoint.isBlank

def trimRight (t : Text) : Text := (t.reverse.dropWhile CodePoint.isBlank).reverse

def trim (t : Text) : Text := trimRight (trimLeft t)

end Text

end ClassScript
