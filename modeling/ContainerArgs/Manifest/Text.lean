import ContainerArgs.Manifest.Basic
import ContainerArgs.Text.Utf8
import ContainerArgs.Yaml.Compose

/-!
# Manifest texts

Manifests read from documents.  Names and keys are the texts of scalars,
whatever these look like otherwise; only the options of a component are values.
-/

namespace ContainerArgs.Manifest

open Yaml

def scalarText (n : Node) : Compose String := do
  match ← Compose.follow n with
  | .scalar _ _ text => return text
  | _ => throw .wrongShape

/-- The entries of a mapping; nothing at all is a mapping without entries. -/
def mappingEntries (n : Node) : Compose (List (Node × Node)) := do
  match ← Compose.follow n with
  | .mapping _ entries => return entries
  | .scalar _ plain text =>
    if plain && text.isEmpty then return [] else throw .wrongShape
  | _ => throw .wrongShape

/-- The elements of a sequence; nothing at all is a sequence without
elements. -/
def sequenceElements (n : Node) : Compose (List Node) := do
  match ← Compose.follow n with
  | .sequence _ elements => return elements
  | .scalar _ plain text =>
    if plain && text.isEmpty then return [] else throw .wrongShape
  | _ => throw .wrongShape

/-- Reads the kind of a component: the text of a scalar, or the name in the
local tag of a plain null. -/
def kindOf (n : Node) : Compose Kind := do
  let name ← match ← Compose.follow n with
    | .scalar p plain text =>
      match p.tag.bind Tag.localName? with
      | some name =>
        if plain && (text.isEmpty || Plain.isNull text) then pure name
        else throw .wrongShape
      | none => pure text
    | _ => throw .wrongShape
  match Kind.names.lookup name with
  | some kind => return kind
  | none => throw .unknownKind

/-- How deep collections in options may nest, below the manifest, its list and a
component. -/
def optionsDepth : Nat :=
  Compose.depthLimit - 3

/-- Reads the entries of a component; known keys stand once. -/
def draftOf : List String → Draft → List (Node × Node) → Compose Draft
  | _, d, [] => return d
  | met, d, (k, v) :: es => do
    let key ← scalarText k
    if met.contains key then throw .duplicateKey
    match key with
    | "name" => draftOf (key :: met) { d with name := some (← scalarText v) } es
    | "kind" => draftOf (key :: met) { d with kind := some (← kindOf v) } es
    | "options" =>
      draftOf (key :: met)
        { d with options := ← Compose.value optionsDepth v } es
    | _ => draftOf met d es

def componentOf (n : Node) : Compose Configuration := do
  let d ← draftOf [] {} (← mappingEntries n)
  match d.finish with
  | .ok c => return c
  | .error _ => throw .missingField

/-- Reads the entries of a manifest; its list of components stands once. -/
def componentsOf : Option (List Configuration) → List (Node × Node) →
    Compose (Option (List Configuration))
  | found, [] => return found
  | found, (k, v) :: es => do
    if (← scalarText k) = "components" then
      if found.isSome then throw .duplicateKey
      componentsOf (some (← (← sequenceElements v).mapM componentOf)) es
    else componentsOf found es

def ofNode (root : Node) : Compose Manifest := do
  match ← componentsOf none (← mappingEntries root) with
  | some components => return ⟨components⟩
  | none => throw .missingField

def ofText (cs : List Char) : Except Error Manifest := do
  match ← Node.ofText cs with
  | some root => Compose.runOn ofNode root
  | none => throw .missingDocument

def ofBytes (bytes : List UInt8) : Except Error Manifest :=
  match Text.Utf8.decode? bytes with
  | some cs => ofText cs
  | none => .error .notUnicode

end ContainerArgs.Manifest
