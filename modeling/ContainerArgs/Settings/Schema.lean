import ContainerArgs.Flag.Extra
import ContainerArgs.Flag.Member
import ContainerArgs.Settings.Setting

/-!
# Records of settings

A schema lists the entries of a record: the key of each, how it is read and
written, and what it contributes to the command line.  Reading goes through a
mapping in its order, so that the first fault is the one reported; keys that the
schema does not know are passed over, and what is missing keeps its default.
-/

namespace ContainerArgs.Settings

open Yaml (Value)

/-- Reads the entries of a mapping into a record, given the keys met before and
how a known key is read. -/
def loadEntries {σ : Type}
    (loader? : String → Option (Value → σ → Except DecodeError σ)) :
    List String → List (Value × Value) → σ → Except DecodeError σ
  | _, [], x => .ok x
  | met, (k, v) :: es, x =>
    match k.untag with
    | .text key =>
      match loader? key with
      | none => loadEntries loader? met es x
      | some load =>
        if met.contains key then .error (.duplicateField key)
        else do
          let y ← load v x
          loadEntries loader? (key :: met) es y
    | found => .error (.wrongType found "field identifier")

/-- Reads a record from a mapping; null is a mapping without entries. -/
def loadRecord {σ : Type} (name : String)
    (loader? : String → Option (Value → σ → Except DecodeError σ)) (start : σ)
    (v : Value) : Except DecodeError σ :=
  match v.untag with
  | .mapping es => loadEntries loader? [] es start
  | .null => .ok start
  | found => .error (.wrongType found ("struct " ++ name))

/-- One entry of a record of settings. -/
structure Entry (σ : Type) where
  key : String
  load : Value → σ → Except DecodeError σ
  save : σ → Value
  member : σ → Flag.Member

namespace Entry

def option {σ α : Type} [Setting α] (key tag : String) (get : σ → α)
    (set : α → σ → σ) : Entry σ where
  key := key
  load v x := (Setting.decode v).map (set · x)
  save x := Setting.encode (get x)
  member x := .tagged key tag true (Setting.flag (get x))

def extra {σ : Type} (key : String) (get : σ → Flag.Extra)
    (set : Flag.Extra → σ → σ) : Entry σ where
  key := key
  load v x := (Setting.decode v).map fun tokens => set ⟨tokens⟩ x
  save x := Setting.encode (get x).tokens
  member x := .extra (get x).tokens

end Entry

/-- A record of settings: its name in messages, its defaults and its entries. -/
structure Schema (σ : Type) where
  name : String
  default : σ
  entries : List (Entry σ)

namespace Schema

def loader? {σ : Type} (s : Schema σ) (key : String) :
    Option (Value → σ → Except DecodeError σ) :=
  (s.entries.find? (·.key = key)).map Entry.load

def load {σ : Type} (s : Schema σ) (v : Value) : Except DecodeError σ :=
  loadRecord s.name s.loader? s.default v

/-- Writes a record with all of its entries. -/
def save {σ : Type} (s : Schema σ) (x : σ) : Value :=
  .mapping (s.entries.map fun e => (.text e.key, e.save x))

/-- What a record contributes to the command line. -/
def members {σ : Type} (s : Schema σ) (x : σ) : List Flag.Member :=
  s.entries.map (·.member x)

end Schema

def Entry.nested {σ τ : Type} (key : String) (schema : Schema τ) (get : σ → τ)
    (set : τ → σ → σ) : Entry σ where
  key := key
  load v x := (schema.load v).map (set · x)
  save x := schema.save (get x)
  member x := .nested (schema.members (get x))

end ContainerArgs.Settings
