import ClassScript.Path.Match
import ClassScript.Settings

/-!
# Selecting class scripts by their paths

Class scripts lie at `<module>/<home>/<path>.js`, where the name of the module has a dot after its
first character. The name of a class is its path below the home, with dots for slashes.
-/

namespace ClassScript

/-- The module and the name of a class. -/
structure Identity where
  moduleName : Text
  className : Text
deriving DecidableEq

structure Selector where
  home : Text
  included : List Path.Pattern
  excluded : List Path.Pattern

namespace Selector

def extension : Text := ".js"

/-- The pattern of the class scripts below a home. -/
def includePattern (home : Text) : Text :=
  Text.ofString "*.*/" ++ home ++ Text.ofString "/**/*" ++ extension

def ofSettings (settings : Settings) : Except Path.PatternFault Selector := do
  return {
    home := settings.classHome
    included := ← Path.readPatterns [includePattern settings.classHome]
    excluded := ← Path.readPatterns settings.exclude }

/-- A path with slashes only between its parts. -/
def normalize (path : Text) : Text :=
  (path.map fun c ↦ if c = CodePoint.ofChar '\\' then Path.slash else c).dropWhile (· == Path.slash)

/-- The identity that a normalized path stands for, if the home takes up the given number of
characters. -/
def identityOf? (homeLength : Nat) (path : Text) : Option Identity :=
  let moduleName := path.takeWhile (· != Path.slash)
  let rest := (path.dropWhile (· != Path.slash)).drop 1
  let classPath := (rest.take (rest.length - extension.length)).drop (homeLength + 1)
  if moduleName.head? = some (CodePoint.ofChar '.') ∨ CodePoint.ofChar '.' ∉ moduleName then none
  else if classPath.isEmpty then none
  else some ⟨moduleName, classPath.map fun c ↦ if c = Path.slash then CodePoint.ofChar '.' else c⟩

/-- The identity of the class script at a path, if it is selected. -/
def identity? (selector : Selector) (path : Text) : Option Identity :=
  let normalized := normalize path
  if Path.isMatch selector.included normalized && !Path.isMatch selector.excluded normalized then
    identityOf? selector.home.length normalized
  else none

end Selector

end ClassScript
