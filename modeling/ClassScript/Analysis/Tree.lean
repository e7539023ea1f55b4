import ClassScript.Analysis
import ClassScript.Json

/-!
# Analyses as JSON

Fixed aspects appear under their own names, generic ones under their side and keyword, nested classes
under `nested`. Every collection is wrapped in an object with the only field `_`.
-/

namespace ClassScript

open Json (object)

def Position.toJson (p : Position) : Json :=
  object [("line", .int p.line), ("column", .int p.column)]

namespace Site

def fields (site : Site) : List (Text × Json) :=
  [("inside", site.inside.toJson), ("from", site.start.toJson), ("to", site.stop.toJson)]

def toJson (site : Site) : Json := object site.fields

end Site

def Remark.toJson (remark : Remark) : Json :=
  object [("text", .text remark.text), ("from", remark.start.toJson)]

/-- The field of remarks, which is left out when there are none. -/
def Remark.fields (remarks : List Remark) : List (Text × Json) :=
  if remarks.isEmpty then [] else [("remarks", .list (remarks.map Remark.toJson))]

def Declaration.toJson (declaration : Declaration) : Json :=
  object (declaration.site.fields ++ Remark.fields declaration.remarks ++
    match declaration.value with
    | some value => [("value", .bool value)]
    | none => [])

/-- A collection. -/
def Json.wrapped (fields : List (Text × Json)) : Json := object [("_", object fields)]

def Bucket.toJson (bucket : Bucket) : Json :=
  .wrapped (bucket.map fun entry ↦ (entry.1, entry.2.toJson))

namespace ClassFacts

/-- The keywords of the generic aspects of a side with their declarations. -/
def keywords (side : Side) (facts : ClassFacts) : List (Text × Json) :=
  facts.aspects.filterMap fun entry ↦
    match entry.1 with
    | .generic side' keyword => if side' = side then some (keyword, entry.2.toJson) else none
    | .fixed _ => none

/-- Sets the field of one aspect. The first generic aspect of a side brings all of that side. -/
def addAspect (facts : ClassFacts) (fields : Table Text Json) (entry : Aspect × Bucket) :
    Table Text Json :=
  match entry.1 with
  | .fixed aspect => Table.put aspect.name entry.2.toJson fields
  | .generic side _ => Table.put side.name (.wrapped (facts.keywords side)) fields

/-- All fields but the nested classes. The start of the class itself wins over that of its site. -/
def fields (facts : ClassFacts) : Table Text Json :=
  let place : Table Text Json := match facts.site with
    | some site => site.fields
    | none => []
  let named := Table.put (Text.ofString "super") (Json.ofOption .text facts.superclass) place
  let started := match facts.start with
    | some start => Table.put (Text.ofString "from") start.toJson named
    | none => named
  facts.aspects.foldl facts.addAspect (started ++ Remark.fields facts.remarks)

end ClassFacts

namespace ClassAnalysis

mutual

def toJson : ClassAnalysis → Json
  | mk facts nested =>
    object (facts.fields ++
      if nested.isEmpty then []
      else [(Text.ofString "nested", Json.wrapped (nestedFields nested))])

def nestedFields : List (Text × ClassAnalysis) → List (Text × Json)
  | [] => []
  | (name, inner) :: rest => (name, toJson inner) :: nestedFields rest

end

end ClassAnalysis

def ModuleAnalysis.toJson (classes : ModuleAnalysis) : Json :=
  .wrapped (classes.map fun entry ↦ (entry.1, entry.2.toJson))

def ArchiveAnalysis.toJson (modules : ArchiveAnalysis) : Json :=
  .wrapped (modules.map fun entry ↦ (entry.1, ModuleAnalysis.toJson entry.2))

end ClassScript
