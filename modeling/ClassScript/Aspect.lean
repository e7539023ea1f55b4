import ClassScript.Text

/-!
# Sides and aspects

A class has an instance side and a class side. What it declares is filed by aspect. The vocabulary has
twelve fixed aspects: five facets on either side, the flags and the package. A keyword outside the
vocabulary makes an aspect of its own on the side it is used on.
-/

namespace ClassScript

inductive Side where
  | instanceSide | classSide
deriving DecidableEq, Repr

namespace Side

def name : Side → Text
  | .instanceSide => "instance"
  | .classSide => "class"

def ofName? (name : Text) : Option Side :=
  [Side.instanceSide, Side.classSide].find? fun side ↦ side.name == name

end Side

inductive Facet where
  | vars | accessors | methods | constants | refinements
deriving DecidableEq, Repr

def Facet.name : Facet → Text
  | .vars => "Variables"
  | .accessors => "Accessors"
  | .methods => "Methods"
  | .constants => "Constants"
  | .refinements => "Refinements"

inductive FixedAspect where
  | facet (side : Side) (facet : Facet)
  | flags
  | package
deriving DecidableEq, Repr

namespace FixedAspect

def name : FixedAspect → Text
  | facet side f => side.name ++ f.name
  | flags => "flags"
  | package => "package"

def all : List FixedAspect :=
  [Facet.vars, .accessors, .methods, .constants, .refinements].flatMap
    (fun f ↦ [facet .instanceSide f, facet .classSide f]) ++ [flags, package]

def ofName? (name : Text) : Option FixedAspect := all.find? fun aspect ↦ aspect.name == name

/-- What is said of a name that is no fixed aspect. -/
def unknownMessage (name : Text) : Text := Text.ofString "Unknown fixed aspect: " ++ name

end FixedAspect

inductive Aspect where
  | fixed (aspect : FixedAspect)
  | generic (side : Side) (keyword : Text)
deriving DecidableEq

namespace Aspect

/-- The name of a fixed aspect, or the side and the keyword with a dot between them. -/
def label : Aspect → Text
  | fixed aspect => aspect.name
  | generic side keyword => side.name ++ Text.ofString "." ++ keyword

end Aspect

end ClassScript
