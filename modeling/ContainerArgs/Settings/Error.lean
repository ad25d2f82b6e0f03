import ContainerArgs.Duration.Retention
import ContainerArgs.Yaml.Value

/-!
# Faults of settings

Why a free-form value is not the typed value that was asked for.
-/

namespace ContainerArgs.Settings

/-- A fault of a value. -/
inductive DecodeError where
  | wrongType (found : Yaml.Value) (expected : String)
  | badValue (found : Yaml.Value) (expected : String)
  | unknownVariant (name : String) (known : List String)
  | missingField (key : String)
  | duplicateField (key : String)
  | badSocketAddress
  | badRetention (fault : Retention.ReadError)
deriving Repr

/-- A name between backticks. -/
def ticked (s : String) : String :=
  "`" ++ s ++ "`"

/-- The names that would have been accepted. -/
def alternatives : List String → String
  | [a, b] => ticked a ++ " or " ++ ticked b
  | [a] => ticked a
  | names => "one of " ++ String.intercalate ", " (names.map ticked)

def DecodeError.message : DecodeError → String
  | .wrongType found expected =>
    "invalid type: " ++ found.describe ++ ", expected " ++ expected
  | .badValue found expected =>
    "invalid value: " ++ found.describe ++ ", expected " ++ expected
  | .unknownVariant name known =>
    "unknown variant " ++ ticked name ++ ", expected " ++ alternatives known
  | .missingField key => "missing field " ++ ticked key
  | .duplicateField key => "duplicate field " ++ ticked key
  | .badSocketAddress => "invalid socket address syntax"
  | .badRetention fault => fault.message

end ContainerArgs.Settings
