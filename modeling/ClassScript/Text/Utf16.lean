import ClassScript.Text

/-!
# UTF-16 units of a text

A code point below `0x10000` is one unit, any other one is a pair of surrogates. Decoding units
joins a high surrogate with a low one that follows it directly and keeps every other surrogate as a
code point of its own; `joinPairs` is that decoding after encoding, said on texts.
-/

namespace ClassScript

namespace CodePoint

def units (c : CodePoint) : List Nat :=
  if c.val < 0x10000 then [c.val]
  else [0xD800 + (c.val - 0x10000) / 0x400, 0xDC00 + (c.val - 0x10000) % 0x400]

/-- The code point that a high and a low surrogate spell together. -/
def ofPair (high low : CodePoint) : CodePoint :=
  Fin.ofNat 0x110000 (0x10000 + (high.val - 0xD800) * 0x400 + (low.val - 0xDC00))

end CodePoint

namespace Text

def units (t : Text) : List Nat := t.flatMap CodePoint.units

/-- Replaces each high surrogate that a low one follows by the code point that both spell. -/
def joinPairs : Text → Text
  | [] => []
  | [c] => [c]
  | c :: d :: rest =>
    if c.isHigh && d.isLow then CodePoint.ofPair c d :: joinPairs rest
    else c :: joinPairs (d :: rest)

end Text

end ClassScript
