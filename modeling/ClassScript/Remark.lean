import ClassScript.JavaScript.Script

/-!
# Remarks

A remark is a comment whose text, blanks at its ends left aside, starts with the remark marker. Its
text is kept as written.
-/

namespace ClassScript

structure Remark where
  text : Text
  start : Position
deriving DecidableEq

namespace Remark

/-- Whether the text of a comment is a remark. A text of blanks only is none, whatever the marker. -/
def isRemark (marker text : Text) : Bool :=
  let trimmed := text.trim
  !trimmed.isEmpty && marker.isPrefixOf trimmed

/-- The remarks of a script in the order of its comments. -/
def collect (marker : Text) (script : JavaScript.Script) : List Remark :=
  (script.comments.filter fun comment ↦ isRemark marker comment.text).map fun comment ↦
    ⟨comment.text, comment.span.start⟩

end Remark

end ClassScript
