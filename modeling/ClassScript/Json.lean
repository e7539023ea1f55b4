import ClassScript.Text
import ClassScript.Table

/-!
# JSON values

What the analysis reports: numbers are integers, strings are texts, and an object keeps the order in
which its fields were set.

Both layouts write ASCII only: any other code point is spelt by the escapes of its UTF-16 units. The
compact layout has no blanks; the indented one puts each item on a line of its own, two blanks deeper
than its container, and the fields of an object in the order of their names.
-/

namespace ClassScript

inductive Json where
  | null
  | bool (b : Bool)
  | int (n : Int)
  | text (t : Text)
  | list (items : List Json)
  | object (fields : List (Text × Json))

namespace Json

instance : Inhabited Json := ⟨null⟩

instance : Coe Text Json := ⟨text⟩

instance : Coe Bool Json := ⟨bool⟩

instance : Coe Int Json := ⟨int⟩

def ofOption {α : Type} (f : α → Json) : Option α → Json
  | none => null
  | some a => f a

/-! ## Layouts -/

def hexDigit (n : Nat) : Char :=
  if n < 10 then Char.ofNat (0x30 + n) else Char.ofNat (0x61 + (n - 10))

/-- Four hexadecimal digits, as in an escape of one UTF-16 unit. -/
def hex4 (n : Nat) : String :=
  String.ofList [hexDigit (n / 0x1000 % 16), hexDigit (n / 0x100 % 16), hexDigit (n / 0x10 % 16),
    hexDigit (n % 16)]

def escape (c : CodePoint) : String :=
  let n := c.val
  if n = 0x22 then "\\\""
  else if n = 0x5C then "\\\\"
  else if n = 0x0A then "\\n"
  else if n = 0x0D then "\\r"
  else if n = 0x09 then "\\t"
  else if n = 0x0C then "\\f"
  else if n = 0x08 then "\\b"
  else if 0x20 ≤ n ∧ n < 0x7F then String.singleton (Char.ofNat n)
  else if n < 0x10000 then "\\u" ++ hex4 n
  else "\\u" ++ hex4 (0xD800 + (n - 0x10000) / 0x400) ++ "\\u" ++ hex4 (0xDC00 + (n - 0x10000) % 0x400)

def quote (t : Text) : String := t.foldl (fun out c ↦ out ++ escape c) "\"" ++ "\""

mutual

def compact : Json → String
  | null => "null"
  | bool b => if b then "true" else "false"
  | int n => toString n
  | text t => quote t
  | list items => "[" ++ compactItems "" items ++ "]"
  | object fields => "\x7b" ++ compactFields "" fields ++ "\x7d"

def compactItems (separator : String) : List Json → String
  | [] => ""
  | item :: rest => separator ++ compact item ++ compactItems "," rest

def compactFields (separator : String) : List (Text × Json) → String
  | [] => ""
  | (name, value) :: rest =>
    separator ++ quote name ++ ":" ++ compact value ++ compactFields "," rest

end

mutual

/-- The same value with the fields of every object in the order of their names. -/
def sorted : Json → Json
  | list items => list (sortedItems items)
  | object fields => object ((sortedFields fields).mergeSort fun a b ↦ Text.le a.1 b.1)
  | other => other

def sortedItems : List Json → List Json
  | [] => []
  | item :: rest => sorted item :: sortedItems rest

def sortedFields : List (Text × Json) → List (Text × Json)
  | [] => []
  | (name, value) :: rest => (name, sorted value) :: sortedFields rest

end

/-- A line break and the blanks of a nesting depth. -/
def newLine (depth : Nat) : String := "\n" ++ String.ofList (List.replicate (2 * depth) ' ')

mutual

def indentedAt (depth : Nat) : Json → String
  | list [] => "[]"
  | list (item :: rest) =>
    "[" ++ newLine (depth + 1) ++ indentedAt (depth + 1) item ++ indentedItems (depth + 1) rest ++
      newLine depth ++ "]"
  | object [] => "\x7b\x7d"
  | object ((name, value) :: rest) =>
    "\x7b" ++ newLine (depth + 1) ++ quote name ++ ": " ++ indentedAt (depth + 1) value ++
      indentedFields (depth + 1) rest ++ newLine depth ++ "\x7d"
  | null => "null"
  | bool b => if b then "true" else "false"
  | int n => toString n
  | text t => quote t

def indentedItems (depth : Nat) : List Json → String
  | [] => ""
  | item :: rest => "," ++ newLine depth ++ indentedAt depth item ++ indentedItems depth rest

def indentedFields (depth : Nat) : List (Text × Json) → String
  | [] => ""
  | (name, value) :: rest =>
    "," ++ newLine depth ++ quote name ++ ": " ++ indentedAt depth value ++
      indentedFields depth rest

end

/-- The layout of reports: indented, fields sorted. -/
def indented (value : Json) : String := indentedAt 0 value.sorted

end Json

end ClassScript
