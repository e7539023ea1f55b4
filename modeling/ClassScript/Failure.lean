import ClassScript.Text

/-!
# Failures

Why a class script cannot be analyzed. A failure names the class that it concerns, which may be nested
in the class of the script.
-/

namespace ClassScript

inductive FailureCause where
  /-- More than one statement. -/
  | tooManyStatements
  /-- No statement, or one that is no class. -/
  | badScript
  /-- A flag whose value is neither true nor false. -/
  | badFlag (flag : Text)
  /-- The source cannot be read near a line. -/
  | unreadable (line : Int)
deriving DecidableEq

structure Failure where
  cause : FailureCause
  moduleName : Text
  className : Text
deriving DecidableEq

/-- How a class is addressed in messages. -/
def classIdentity (moduleName className : Text) : Text :=
  Text.ofString "~" ++ moduleName ++ Text.ofString "/" ++ className

namespace Failure

def identity (failure : Failure) : Text := classIdentity failure.moduleName failure.className

/-- The word for a cause in reports. -/
def kind (failure : Failure) : Text :=
  match failure.cause with
  | .tooManyStatements => "too_many_statements"
  | .badScript => "bad_script"
  | .badFlag _ => "bad_flag"
  | .unreadable _ => "syntax_error"

def message (failure : Failure) : Text :=
  match failure.cause with
  | .tooManyStatements => Text.ofString "Too many statements: " ++ failure.identity
  | .badScript => Text.ofString "Bad script: " ++ failure.identity
  | .badFlag flag => Text.ofString "Bad flag: " ++ flag ++ Text.ofString " in " ++ failure.identity
  | .unreadable line =>
    Text.ofString "Syntax error near line " ++ Text.ofInt line ++ Text.ofString ": " ++
      failure.identity

end Failure

end ClassScript
