import ClassScript.Archive.Inflate
import ClassScript.FileTree

/-!
# Archives

An archive ends with a record that tells where its directory is. The directory has an entry for each
member with its name, its checksum, and the place of its data, which is stored as it is or deflated. A
member that does not have the checksum is damaged, and one whose data cannot be had counts as such. The
checksum is the cyclic redundancy check of 32 bits, the lowest bit of each byte first.
-/

namespace ClassScript.Archive

/-- One step of division by the reversed generator polynomial. -/
def divide (remainder : UInt32) : UInt32 :=
  if remainder &&& 1 = 1 then (remainder >>> 1) ^^^ 0xEDB88320 else remainder >>> 1

def addByte (remainder : UInt32) (byte : UInt8) : UInt32 :=
  (List.range 8).foldl (fun remainder _ ↦ divide remainder) (remainder ^^^ byte.toUInt32)

def checksum (bytes : List UInt8) : UInt32 := bytes.foldl addByte 0xFFFFFFFF ^^^ 0xFFFFFFFF

/-- A number of some bytes at an offset, the lowest byte first. -/
def field? (bytes : ByteArray) (offset : Nat) : (count : Nat) → Option Nat
  | 0 => some 0
  | count + 1 => do
    let first ← bytes.data[offset]?
    let rest ← field? bytes (offset + 1) count
    return first.toNat + 256 * rest

def hasSignature (bytes : ByteArray) (offset signature : Nat) : Bool :=
  field? bytes offset 4 == some signature

def slice (bytes : ByteArray) (offset count : Nat) : List UInt8 :=
  (bytes.extract offset (offset + count)).data.toList

/-- Where the record at the end of an archive is: at the last place that has its signature and room for
it. -/
def endRecord? (bytes : ByteArray) : Option Nat :=
  (List.range (bytes.size + 1 - 22)).reverse.find? fun offset ↦ hasSignature bytes offset 0x06054B50

/-- The name of a member, in UTF-8 if it can be. -/
def memberName (bytes : List UInt8) : Text :=
  match String.fromUTF8? (ByteArray.mk bytes.toArray) with
  | some name => Text.ofString name
  | none => bytes.map fun byte ↦ CodePoint.ofChar (Char.ofNat byte.toNat)

/-- The data of a member, given where its local header is. -/
def content? (bytes : ByteArray) (localHeader method size : Nat) : Option ByteArray := do
  if hasSignature bytes localHeader 0x04034B50 then
    let name ← field? bytes (localHeader + 26) 2
    let extra ← field? bytes (localHeader + 28) 2
    let data := slice bytes (localHeader + 30 + name + extra) size
    match method with
    | 0 => some (ByteArray.mk data.toArray)
    | 8 => inflate? data
    | _ => none
  else none

/-- The member with the directory entry at an offset, and the offset after the entry. -/
def member? (bytes : ByteArray) (offset : Nat) : Option (Member × Nat) := do
  if hasSignature bytes offset 0x02014B50 then
    let method ← field? bytes (offset + 10) 2
    let check ← field? bytes (offset + 16) 4
    let size ← field? bytes (offset + 20) 4
    let name ← field? bytes (offset + 28) 2
    let extra ← field? bytes (offset + 30) 2
    let comment ← field? bytes (offset + 32) 2
    let localHeader ← field? bytes (offset + 42) 4
    let content := content? bytes localHeader method size
    let sound := content.any fun content ↦ (checksum content.data.toList).toNat == check
    return ({ name := memberName (slice bytes (offset + 46) name)
              content := content.getD ByteArray.empty
              damaged := !sound },
      offset + 46 + name + extra + comment)
  else none

/-- The members with directory entries from an offset on. -/
def membersFrom? (bytes : ByteArray) : (count offset : Nat) → Option (List Member)
  | 0, _ => some []
  | count + 1, offset => do
    let (member, offset) ← member? bytes offset
    return member :: (← membersFrom? bytes count offset)

/-- The members of an archive; `none` if the bytes are no archive. -/
def members? (bytes : ByteArray) : Option (List Member) := do
  let record ← endRecord? bytes
  let count ← field? bytes (record + 10) 2
  let offset ← field? bytes (record + 16) 4
  membersFrom? bytes count offset

end ClassScript.Archive
