import ClassScript.Aspect
import ClassScript.Remark
import ClassScript.Table

/-!
# Analyses

The analysis of a class holds its superclass, the declarations of each aspect, its nested classes, and
the remarks on all of them. All collections keep the order in which their entries were first put in.
Analyses of classes make up modules, and modules an archive.
-/

namespace ClassScript

/-- Where a member is declared: the start of the object literal it stands in, its own start and its
end. -/
structure Site where
  inside : Position
  start : Position
  stop : Position
deriving DecidableEq

/-- A declared member. A flag also has a value. -/
structure Declaration where
  site : Site
  value : Option Bool := none
  remarks : List Remark := []
deriving DecidableEq

abbrev Bucket := Table Text Declaration

/-- What is known of a class apart from its nested classes. -/
structure ClassFacts where
  moduleName : Text
  className : Text
  superclass : Option Text := none
  /-- The start of the function that encodes the class. -/
  start : Option Position := none
  /-- Where the class is declared in its parent; none for a class of its own. -/
  site : Option Site := none
  aspects : Table Aspect Bucket := []
  remarks : List Remark := []

inductive ClassAnalysis where
  | mk (facts : ClassFacts) (nested : List (Text × ClassAnalysis))

namespace ClassAnalysis

/-- What stands between the names of a class and of a class nested in it. -/
def nestedSeparator : Text := "._."

/-- The superclass of a class that names none. -/
def bareSuperclass : Text := "super"

def facts : ClassAnalysis → ClassFacts
  | mk facts _ => facts

def nested : ClassAnalysis → Table Text ClassAnalysis
  | mk _ nested => nested

instance : Inhabited ClassAnalysis := ⟨mk ⟨[], [], none, none, none, [], []⟩ []⟩

/-- A class of which nothing is known but its name. -/
def empty (moduleName className : Text) : ClassAnalysis :=
  mk { moduleName, className } []

def mapFacts (f : ClassFacts → ClassFacts) : ClassAnalysis → ClassAnalysis
  | mk facts nested => mk (f facts) nested

def bucket? (analysis : ClassAnalysis) (aspect : Aspect) : Option Bucket :=
  Table.get? aspect analysis.facts.aspects

/-- Makes sure that an aspect has a bucket. -/
def touch (aspect : Aspect) : ClassAnalysis → ClassAnalysis :=
  mapFacts fun facts ↦
    { facts with aspects := Table.alter aspect (fun bucket ↦ bucket.getD []) facts.aspects }

/-- Files a declaration under an aspect; an earlier one of the same name is replaced. -/
def declare (aspect : Aspect) (name : Text) (declaration : Declaration) :
    ClassAnalysis → ClassAnalysis :=
  mapFacts fun facts ↦
    { facts with
      aspects := Table.alter aspect (fun bucket ↦ Table.put name declaration (bucket.getD []))
        facts.aspects }

/-- Files a nested class; an earlier one of the same name is replaced. -/
def nest (analysis : ClassAnalysis) (name : Text) (inner : ClassAnalysis) : ClassAnalysis :=
  mk analysis.facts (Table.put name inner analysis.nested)

/-! ## Summaries -/

/-- The aspects with the numbers of their declarations, in the order of what is written. -/
def aspectSummary (analysis : ClassAnalysis) : Text :=
  let parts := analysis.facts.aspects.map fun entry ↦
    entry.1.label ++ Text.ofString "=" ++ Text.ofInt entry.2.length
  Text.join ", " (parts.mergeSort Text.le)

/-- The remarks on the class itself and on its declarations. -/
def ownRemarkCount (facts : ClassFacts) : Nat :=
  facts.aspects.foldl
    (fun count entry ↦ entry.2.foldl (fun count e ↦ count + e.2.remarks.length) count)
    facts.remarks.length

mutual

/-- The remarks on a class, on its declarations, and within its nested classes. -/
def remarkCount : ClassAnalysis → Nat
  | mk facts nested => ownRemarkCount facts + nestedRemarkCount nested

def nestedRemarkCount : List (Text × ClassAnalysis) → Nat
  | [] => 0
  | (_, inner) :: rest => remarkCount inner + nestedRemarkCount rest

end

end ClassAnalysis

/-- The analyses of a module's classes by name. -/
abbrev ModuleAnalysis := Table Text ClassAnalysis

/-- The analyses of an archive's modules by name. -/
abbrev ArchiveAnalysis := Table Text ModuleAnalysis

end ClassScript
