import ContainerArgs.Component.Kind

/-!
# Manifests

A manifest lists components by name, each with a kind and free-form options.  It
is valid when the names are present and distinct and every component has
arguments.
-/

namespace ContainerArgs

open Settings Component

/-- A component as a manifest lists it. -/
structure Configuration where
  name : String
  kind : Kind
  options : Yaml.Value
deriving Repr

/-- Why a manifest cannot be rendered. -/
inductive ManifestError where
  | emptyName
  | duplicateName (name : String)
  | invalidOptions (name : String) (fault : DecodeError)
  | validation (name : String) (fault : ValidationError)
deriving Repr

def ManifestError.message : ManifestError → String
  | .emptyName => "Component name cannot be empty"
  | .duplicateName name => "Duplicate component name: " ++ name
  | .invalidOptions name fault =>
    "Invalid options for component " ++ name ++ ": " ++ fault.message
  | .validation name fault =>
    "Component " ++ name ++ " is misconfigured: " ++ fault.message

namespace Configuration

/-- The options read for the kind. -/
def specification (c : Configuration) : Except ManifestError Specification :=
  (Specification.load c.kind c.options).mapError (.invalidOptions c.name)

def args (c : Configuration) : Except ManifestError (List String) := do
  let s ← c.specification
  s.args.mapError (.validation c.name)

/-- Whether the component can start with its options. -/
def check (c : Configuration) : Except ManifestError Unit := do
  let s ← c.specification
  s.validate.mapError (.validation c.name)

end Configuration

/-- A list of components. -/
structure Manifest where
  components : List Configuration
deriving Repr

namespace Manifest

/-- Checks components in order, given the names met before. -/
def checkAll : List String → List Configuration → Except ManifestError Unit
  | _, [] => .ok ()
  | met, c :: cs =>
    if c.name.isEmpty then .error .emptyName
    else if met.contains c.name then .error (.duplicateName c.name)
    else do
      c.check
      checkAll (c.name :: met) cs

/-- Checks a manifest; the first component at fault is reported. -/
def validate (m : Manifest) : Except ManifestError Unit :=
  checkAll [] m.components

def component? (m : Manifest) (name : String) : Option Configuration :=
  m.components.find? (·.name = name)

/-- A component in the course of being read. -/
structure Draft where
  name : Option String := none
  kind : Option Kind := none
  options : Yaml.Value := .null

/-- How the entries of a component are read. -/
def Draft.loader? :
    String → Option (Yaml.Value → Draft → Except DecodeError Draft)
  | "name" => some fun v d =>
    (decodeText "a string" v).map fun s => { d with name := some s }
  | "kind" => some fun v d =>
    (Kind.decode v).map fun k => { d with kind := some k }
  | "options" => some fun v d => .ok { d with options := v }
  | _ => none

/-- The component, if its name and its kind were there. -/
def Draft.finish (d : Draft) : Except DecodeError Configuration :=
  match d.name, d.kind with
  | none, _ => .error (.missingField "name")
  | _, none => .error (.missingField "kind")
  | some name, some kind => .ok ⟨name, kind, d.options⟩

def decodeComponent (v : Yaml.Value) : Except DecodeError Configuration := do
  (← loadRecord "ComponentConfig" Draft.loader? {} v).finish

def decodeComponents (v : Yaml.Value) :
    Except DecodeError (List Configuration) :=
  match v.untag with
  | .sequence vs => vs.mapM decodeComponent
  | .null => .ok []
  | found => .error (.wrongType found "a sequence")

/-- How the entries of a manifest are read. -/
def loader? (key : String) :
    Option
      (Yaml.Value → Option Manifest → Except DecodeError (Option Manifest)) :=
  if key = "components" then
    some fun v _ => (decodeComponents v).map fun cs => some ⟨cs⟩
  else none

def decode (v : Yaml.Value) : Except DecodeError Manifest := do
  match ← loadRecord "Manifest" loader? none v with
  | some m => .ok m
  | none => .error (.missingField "components")

end Manifest

end ContainerArgs
