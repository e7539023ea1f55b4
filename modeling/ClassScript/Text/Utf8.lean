import ClassScript.Text

/-!
# UTF-8 bytes of a text

A character is encoded in one to four bytes. Any bytes can be decoded: where they encode no
character, the longest beginning of one, or else a single byte, is malformed, and a replacement
character stands for it.
-/

namespace ClassScript.Utf8

def encode (cs : List Char) : List UInt8 := cs.flatMap String.utf8EncodeChar

/-- The ranges of the bytes that follow a first byte; none if it is not the first of several. -/
def followers (first : Nat) : List (Nat × Nat) :=
  if first < 0xC2 then []
  else if first ≤ 0xDF then [(0x80, 0xBF)]
  else if first = 0xE0 then [(0xA0, 0xBF), (0x80, 0xBF)]
  else if first = 0xED then [(0x80, 0x9F), (0x80, 0xBF)]
  else if first ≤ 0xEF then [(0x80, 0xBF), (0x80, 0xBF)]
  else if first = 0xF0 then [(0x90, 0xBF), (0x80, 0xBF), (0x80, 0xBF)]
  else if first ≤ 0xF3 then [(0x80, 0xBF), (0x80, 0xBF), (0x80, 0xBF)]
  else if first = 0xF4 then [(0x80, 0x8F), (0x80, 0xBF), (0x80, 0xBF)]
  else []

/-- How many bytes there are, from the start on, that lie in the ranges one by one. -/
def fitting : List (Nat × Nat) → List UInt8 → Nat
  | (low, high) :: ranges, b :: rest =>
    if low ≤ b.toNat ∧ b.toNat ≤ high then fitting ranges rest + 1 else 0
  | _, _ => 0

/-- The number that a first byte and those that follow it encode. -/
def number (first : Nat) (rest : List UInt8) : Nat :=
  rest.foldl (fun n b ↦ n * 64 + b.toNat % 64) (first % Nat.pow 2 (6 - rest.length))

/-- The code points that bytes encode; `none` for malformed bytes. -/
def decode (bytes : List UInt8) : List (Option CodePoint) :=
  match bytes with
  | [] => []
  | first :: rest =>
    if first.toNat < 0x80 then some (Fin.ofNat 0x110000 first.toNat) :: decode rest
    else
      let ranges := followers first.toNat
      let count := fitting ranges rest
      let found :=
        if ranges.isEmpty || count < ranges.length then none
        else some (Fin.ofNat 0x110000 (number first.toNat (rest.take count)))
      found :: decode (rest.drop count)
termination_by bytes.length
decreasing_by
  · simp
  · simp only [List.length_drop, List.length_cons]
    omega

/-- Stands for malformed bytes. -/
def replacement : CodePoint := 0xFFFD

def decodeReplacing (bytes : List UInt8) : Text := (decode bytes).map (·.getD replacement)

end ClassScript.Utf8
