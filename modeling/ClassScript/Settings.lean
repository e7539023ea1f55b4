import ClassScript.Text.Quoted

/-!
# Settings

How class scripts are found and which comments are remarks: the directory below each module that holds
the scripts, the character that marks a remark, and the patterns of paths to leave out.
-/

namespace ClassScript

structure Settings where
  classHome : Text
  marker : CodePoint
  exclude : List Text
  /-- The home is one directory name. -/
  oneName : classHome ≠ [] ∧ CodePoint.ofChar '/' ∉ classHome
  visible : marker.isBlank = false

/-- Why settings are refused. -/
inductive SettingsFault where
  | classHome (given : Text)
  | marker (given : Text)
deriving DecidableEq

namespace SettingsFault

def message : SettingsFault → Text
  | classHome given => Text.ofString "class_home must be one directory name: " ++ given.quoted
  | marker given => Text.ofString "remark_marker must be one visible character: " ++ given.quoted

end SettingsFault

namespace Settings

def defaultHome : Text := "_"

def defaultMarker : Text := "@"

/-- Checks the home first and then the marker. -/
def make (home marker : Text) (exclude : List Text) : Except SettingsFault Settings :=
  if h : home ≠ [] ∧ CodePoint.ofChar '/' ∉ home then
    match marker with
    | [c] => if hc : c.isBlank = false then .ok ⟨home, c, exclude, h, hc⟩ else .error (.marker marker)
    | _ => .error (.marker marker)
  else .error (.classHome home)

def default : Settings where
  classHome := defaultHome
  marker := CodePoint.ofChar '@'
  exclude := []
  oneName := by decide
  visible := by decide

end Settings

end ClassScript
