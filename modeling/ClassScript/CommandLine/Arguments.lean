import ClassScript.Settings
import ClassScript.Text.Numeral

/-!
# Arguments of the command line

The only command is `analyze`, with options that start with two dashes. An option may be shortened as
long as only one option starts that way, its value is the next argument or follows an equals sign, and
of repeated options the last one counts, except that patterns to exclude add up. Whatever else is
given is refused.
-/

namespace ClassScript.CommandLine

/-- An option that takes a value. -/
inductive Setting where
  | path
  | format
  | output
  | classHome
  | remarkMarker
  | exclude
  | maxWorkers
deriving DecidableEq

inductive Choice where
  | setting (setting : Setting)
  | verbose
  | help
deriving DecidableEq

/-- The options by their names. -/
def choices : List (Text × Choice) :=
  [("--help", .help), ("--path", .setting .path), ("--format", .setting .format),
    ("--output", .setting .output), ("--class-home", .setting .classHome),
    ("--remark-marker", .setting .remarkMarker), ("--exclude", .setting .exclude),
    ("--max-workers", .setting .maxWorkers), ("--verbose", .verbose)]

/-- What an argument is. -/
inductive Argument where
  | value
  | choice (choice : Choice) (attached : Option Text)
  /-- It looks like an option and is none. -/
  | unknown
deriving DecidableEq

def dash : CodePoint := CodePoint.ofChar '-'

def isDecimal (c : CodePoint) : Bool := c.decimalValue?.isSome

/-- Without one line feed at the end. -/
def withoutLineFeed (t : Text) : Text :=
  if t.getLast? = some (CodePoint.ofChar '\n') then t.dropLast else t

/-- Whether a text after a dash makes a negative number: digits, or digits after a point. -/
def isMagnitude (t : Text) : Bool :=
  let t := withoutLineFeed t
  (!t.isEmpty && t.all isDecimal) ||
    match t.dropWhile isDecimal with
    | c :: rest => c == CodePoint.ofChar '.' && !rest.isEmpty && rest.all isDecimal
    | [] => false

/-- The part of an argument before an equals sign, and the part after it. -/
def splitAttached (t : Text) : Text × Option Text :=
  let equals := CodePoint.ofChar '='
  match t.dropWhile (· != equals) with
  | _ :: attached => (t.takeWhile (· != equals), some attached)
  | [] => (t, none)

/-- The options that a name stands for. -/
def candidates (name : Text) : List Choice :=
  match choices.find? fun entry ↦ entry.1 == name with
  | some entry => [entry.2]
  | none => (choices.filter fun entry ↦ name.isPrefixOf entry.1).map Prod.snd

/-- Sorts an argument. An argument with a dash in front is still a value if it is a lone dash, a
negative number, or has a blank in it and is not an option. -/
def classify (t : Text) : Argument :=
  match t with
  | c :: d :: rest =>
    if c ≠ dash then .value
    else if d = dash then
      let (name, attached) := splitAttached t
      match candidates name with
      | [choice] => .choice choice attached
      | [] => if CodePoint.ofChar ' ' ∈ t then .value else .unknown
      | _ => .unknown
    else if d = CodePoint.ofChar 'h' then .choice .help none
    else if isMagnitude (d :: rest) || (CodePoint.ofChar ' ' ∈ t) then .value
    else .unknown
  | _ => .value

inductive Format where
  | table
  | json
deriving DecidableEq

/-- The arguments of an analysis. -/
structure Arguments where
  path : Text
  format : Format
  output : Option Text
  classHome : Text
  marker : Text
  exclude : List Text
  workers : Int
deriving DecidableEq

/-- Arguments as far as they are known. -/
structure Draft where
  path : Option Text := none
  format : Format := .table
  output : Option Text := none
  classHome : Text := Settings.defaultHome
  marker : Text := Settings.defaultMarker
  exclude : List Text := []
  workers : Int := 4

/-- The most digits that a number may have, zeros in front included. -/
def mostDigits : Nat := 4300

def workers? (value : Text) : Option Int :=
  if (value.filter isDecimal).length ≤ mostDigits then Numeral.read? 10 value else none

namespace Draft

/-- Sets an option; none if the value does not suit it. -/
def set (draft : Draft) (setting : Setting) (value : Text) : Option Draft :=
  match setting with
  | .path => some { draft with path := some value }
  | .format =>
    if value = Text.ofString "table" then some { draft with format := .table }
    else if value = Text.ofString "json" then some { draft with format := .json }
    else none
  | .output => some { draft with output := some value }
  | .classHome => some { draft with classHome := value }
  | .remarkMarker => some { draft with marker := value }
  | .exclude => some { draft with exclude := draft.exclude ++ [value] }
  | .maxWorkers => (workers? value).map fun workers ↦ { draft with workers }

/-- Takes in the arguments one after the other. -/
def collect (draft : Draft) : List Text → Option Draft
  | [] => some draft
  | argument :: rest =>
    match classify argument with
    | .choice .verbose none => draft.collect rest
    | .choice (.setting setting) (some value) => do (← draft.set setting value).collect rest
    | .choice (.setting setting) none =>
      match rest with
      | value :: rest =>
        if classify value = .value then do (← draft.set setting value).collect rest else none
      | [] => none
    | _ => none

def finish (draft : Draft) : Option Arguments :=
  draft.path.map fun path ↦
    { path, format := draft.format, output := draft.output, classHome := draft.classHome,
      marker := draft.marker, exclude := draft.exclude, workers := draft.workers }

end Draft

namespace Arguments

def command : Text := "analyze"

/-- Reads a command line; none if it is refused. -/
def read? (arguments : List Text) : Option Arguments :=
  match arguments with
  | name :: rest => if name = command then (({} : Draft).collect rest).bind Draft.finish else none
  | [] => none

end Arguments

end ClassScript.CommandLine
