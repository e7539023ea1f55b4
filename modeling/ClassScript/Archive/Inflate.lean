/-!
# Deflated data

Deflated data is a sequence of blocks over a stream of bits, the lowest bit of each byte first. A block
is stored as it is, or coded with prefix codes for bytes and for repetitions of earlier output. The
codes are fixed, or given by the lengths of their code words at the start of the block.
-/

namespace ClassScript.Archive

abbrev Bits := List Bool

def bitsOf (bytes : List UInt8) : Bits :=
  bytes.flatMap fun byte ↦ (List.range 8).map byte.toNat.testBit

/-- A number of the given width, its lowest bit first. -/
def number? : (width : Nat) → Bits → Option (Nat × Bits)
  | 0, bits => some (0, bits)
  | _ + 1, [] => none
  | width + 1, bit :: bits =>
    (number? width bits).map fun (rest, bits) ↦ (bit.toNat + 2 * rest, bits)

/-- A prefix code: how many code words there are of each length from one on, and their symbols in the
order of the code words. -/
structure Code where
  counts : List Nat
  symbols : Array Nat

namespace Code

def maxLength : Nat := 15

/-- The code in which each symbol has a code word of the given length, zero standing for none. -/
def ofLengths (lengths : List Nat) : Code :=
  let ofLength (length : Nat) := lengths.zipIdx.filterMap fun entry ↦
    if entry.1 = length then some entry.2 else none
  let groups := (List.range maxLength).map fun index ↦ ofLength (index + 1)
  ⟨groups.map List.length, groups.flatten.toArray⟩

/-- Reads a code word. Those of one length are consecutive numbers, beginning with `first`; `index` is
how many are shorter. -/
def read? (symbols : Array Nat) :
    (counts : List Nat) → (code first index : Nat) → Bits → Option (Nat × Bits)
  | count :: counts, code, first, index, bit :: bits =>
    let code := code + bit.toNat
    if code < first + count then (symbols[index + (code - first)]?).map fun symbol ↦ (symbol, bits)
    else read? symbols counts (2 * code) (2 * (first + count)) (index + count) bits
  | _, _, _, _, _ => none

def symbol? (code : Code) (bits : Bits) : Option (Nat × Bits) :=
  read? code.symbols code.counts 0 0 0 bits

/-- The code of bytes and lengths in a block with fixed codes. -/
def fixedLiterals : Code :=
  ofLengths (List.replicate 144 8 ++ List.replicate 112 9 ++ List.replicate 24 7 ++
    List.replicate 8 8)

def fixedDistances : Code := ofLengths (List.replicate 30 5)

end Code

/-- The least value that each symbol for a length stands for, and how many bits are added to it. -/
def lengthValues : List (Nat × Nat) :=
  [(3, 0), (4, 0), (5, 0), (6, 0), (7, 0), (8, 0), (9, 0), (10, 0), (11, 1), (13, 1), (15, 1),
    (17, 1), (19, 2), (23, 2), (27, 2), (31, 2), (35, 3), (43, 3), (51, 3), (59, 3), (67, 4),
    (83, 4), (99, 4), (115, 4), (131, 5), (163, 5), (195, 5), (227, 5), (258, 0)]

/-- The same for the symbols for distances. -/
def distanceValues : List (Nat × Nat) :=
  [(1, 0), (2, 0), (3, 0), (4, 0), (5, 1), (7, 1), (9, 2), (13, 2), (17, 3), (25, 3), (33, 4),
    (49, 4), (65, 5), (97, 5), (129, 6), (193, 6), (257, 7), (385, 7), (513, 8), (769, 8),
    (1025, 9), (1537, 9), (2049, 10), (3073, 10), (4097, 11), (6145, 11), (8193, 12), (12289, 12),
    (16385, 13), (24577, 13)]

/-- The value of a symbol with its additional bits. -/
def value? (values : List (Nat × Nat)) (symbol : Nat) (bits : Bits) : Option (Nat × Bits) := do
  let (least, width) ← values[symbol]?
  let (more, bits) ← number? width bits
  return (least + more, bits)

/-- Appends a repetition of what stands at a distance before the end. -/
def repeated (output : Array UInt8) (distance : Nat) : (length : Nat) → Array UInt8
  | 0 => output
  | length + 1 => repeated (output.push (output.getD (output.size - distance) 0)) distance length

/-- Reads the symbols of a coded block up to its end. The fuel is a bound on their number. -/
def coded? (literals distances : Code) : (fuel : Nat) → Array UInt8 → Bits →
    Option (Array UInt8 × Bits)
  | 0, _, _ => none
  | fuel + 1, output, bits => do
    let (symbol, bits) ← literals.symbol? bits
    if symbol < 256 then coded? literals distances fuel (output.push (UInt8.ofNat symbol)) bits
    else if symbol = 256 then return (output, bits)
    else
      let (length, bits) ← value? lengthValues (symbol - 257) bits
      let (symbol, bits) ← distances.symbol? bits
      let (distance, bits) ← value? distanceValues symbol bits
      if output.size < distance then none
      else coded? literals distances fuel (repeated output distance length) bits

def bytes? : (count : Nat) → Array UInt8 → Bits → Option (Array UInt8 × Bits)
  | 0, output, bits => some (output, bits)
  | count + 1, output, bits => do
    let (byte, bits) ← number? 8 bits
    bytes? count (output.push (UInt8.ofNat byte)) bits

/-- Reads a stored block: its length, the complement of its length, and its bytes. -/
def stored? (output : Array UInt8) (bits : Bits) : Option (Array UInt8 × Bits) := do
  let (length, bits) ← number? 16 bits
  let (complement, bits) ← number? 16 bits
  if length + complement ≠ 0xFFFF then none else bytes? length output bits

/-- The order in which the lengths of the code words for lengths are given. -/
def lengthOrder : List Nat := [16, 17, 18, 0, 8, 7, 9, 6, 10, 5, 11, 4, 12, 3, 13, 2, 14, 1, 15]

def numbers? (width : Nat) : (count : Nat) → Bits → Option (List Nat × Bits)
  | 0, bits => some ([], bits)
  | count + 1, bits => do
    let (first, bits) ← number? width bits
    let (rest, bits) ← numbers? width count bits
    return (first :: rest, bits)

/-- Reads the lengths of code words until there are as many as wanted. Symbols from sixteen on repeat
the last length or zero. -/
def lengths? (code : Code) (wanted : Nat) : (fuel : Nat) → Array Nat → Bits →
    Option (Array Nat × Bits)
  | 0, _, _ => none
  | fuel + 1, lengths, bits =>
    if wanted ≤ lengths.size then if lengths.size = wanted then some (lengths, bits) else none
    else do
      let (symbol, bits) ← code.symbol? bits
      if symbol < 16 then lengths? code wanted fuel (lengths.push symbol) bits
      else
        let last ← if symbol = 16 then lengths.back? else some 0
        let (count, bits) ← value? [(3, 2), (3, 3), (11, 7)] (symbol - 16) bits
        lengths? code wanted fuel (lengths ++ Array.replicate count last) bits

/-- Reads the two codes at the start of a block. -/
def codes? (bits : Bits) : Option (Code × Code × Bits) := do
  let (literals, bits) ← number? 5 bits
  let (distances, bits) ← number? 5 bits
  let (count, bits) ← number? 4 bits
  let (given, bits) ← numbers? 3 (count + 4) bits
  let lengthOf (symbol : Nat) := ((lengthOrder.zip given).find? fun entry ↦ entry.1 == symbol).map
    Prod.snd
  let code := Code.ofLengths ((List.range 19).map fun symbol ↦ (lengthOf symbol).getD 0)
  let wanted := literals + 257 + (distances + 1)
  let (lengths, bits) ← lengths? code wanted (wanted + 1) #[] bits
  return (.ofLengths (lengths.toList.take (literals + 257)),
    .ofLengths (lengths.toList.drop (literals + 257)), bits)

/-- Reads blocks up to the last one. The fuel is a bound on their number. -/
def blocks? : (fuel : Nat) → Array UInt8 → Bits → Option (Array UInt8)
  | 0, _, _ => none
  | fuel + 1, output, bits => do
    let (last, bits) ← number? 1 bits
    let (kind, bits) ← number? 2 bits
    let (output, bits) ← match kind with
      | 0 => stored? output (bits.drop (bits.length % 8))
      | 1 => coded? .fixedLiterals .fixedDistances (bits.length + 1) output bits
      | 2 => do
        let (literals, distances, bits) ← codes? bits
        coded? literals distances (bits.length + 1) output bits
      | _ => none
    if last = 1 then return output else blocks? fuel output bits

/-- The data that was deflated to the given bytes. -/
def inflate? (bytes : List UInt8) : Option ByteArray :=
  let bits := bitsOf bytes
  (blocks? (bits.length + 1) #[] bits).map ByteArray.mk

end ClassScript.Archive
