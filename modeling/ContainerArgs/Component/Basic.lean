import ContainerArgs.Settings.Schema

/-!
# Components

A component is a program that can be deployed.  Its options are a record of
settings, which it checks for what it cannot start without, and its command line
is a subcommand, if it has one, and the encoded options.
-/

namespace ContainerArgs.Component

/-- Why a component cannot start with its options. -/
inductive ValidationError where
  | missingField (component field : String)
  | invalid (component reason : String)
deriving DecidableEq, Repr

def ValidationError.message : ValidationError → String
  | .missingField component field =>
    component ++ ": required option " ++ field ++ " is not set"
  | .invalid component reason => component ++ ": " ++ reason

end ContainerArgs.Component

namespace ContainerArgs

/-- A program with options of a type. -/
structure Component (σ : Type) where
  name : String
  subcommand : Option String
  schema : Settings.Schema σ
  validate : σ → Except Component.ValidationError Unit
  extra : σ → Flag.Extra
  setExtra : Flag.Extra → σ → σ

namespace Component

/-- Fails when a required field is missing. -/
def require (component field : String) (missing : Bool) :
    Except ValidationError Unit :=
  if missing then .error (.missingField component field) else .ok ()

def record {σ : Type} (c : Component σ) (o : σ) : Flag.Record :=
  .ofMembers (c.schema.members o)

/-- The encoded options, without any check. -/
def encode {σ : Type} (c : Component σ) (o : σ) : List String :=
  (c.record o).encode.arguments

/-- The arguments of the program: the subcommand and the encoded options, if
they pass the check. -/
def args {σ : Type} (c : Component σ) (o : σ) :
    Except ValidationError (List String) := do
  c.validate o
  pure (c.subcommand.toList ++ c.encode o)

/-- The options with their extra tokens edited. -/
def editExtra {σ : Type} (c : Component σ) (e : Flag.Extra.Edit) (o : σ) : σ :=
  c.setExtra ((c.extra o).apply e) o

end Component

end ContainerArgs
