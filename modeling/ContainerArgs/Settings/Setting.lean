import ContainerArgs.Duration.Spelled
import ContainerArgs.Flag.Value
import ContainerArgs.Net.Address
import ContainerArgs.Settings.Error

/-!
# Typed settings

The types of settings: how each is read from a free-form value, written as one,
and passed on as the value of an option. Scalars and sequences are read without
regard to tags, and nothing is converted between texts, numbers and booleans.
-/

namespace ContainerArgs.Settings

open Yaml (Value)

/-- A type of settings. -/
class Setting (α : Type) where
  decode : Value → Except DecodeError α
  encode : α → Value
  flag : α → Flag.Value

def decodeText (expected : String) (v : Value) : Except DecodeError String :=
  match v.untag with
  | .text s => .ok s
  | found => .error (.wrongType found expected)

instance : Setting String where
  decode := decodeText "a string"
  encode := .text
  flag s := .leaf (.text s)

instance : Setting Text.FilePath where
  decode v := (decodeText "path string" v).map Text.FilePath.ofText
  encode p := .text p.text
  flag p := .leaf (.path p)

instance : Setting Bool where
  decode v := match v.untag with
    | .bool b => .ok b
    | found => .error (.wrongType found "a boolean")
  encode := .bool
  flag b := .leaf (.bool b)

/-- Reads a natural number below a bound. -/
def decodeNat (bound : Nat) (expected : String) (v : Value) :
    Except DecodeError Nat :=
  match v.untag with
  | .int n =>
    if 0 ≤ n ∧ n < bound then .ok n.toNat
    else .error (.badValue (.int n) expected)
  | found => .error (.wrongType found expected)

instance : Setting UInt16 where
  decode v := (decodeNat (Nat.pow 2 16) "u16" v).map Nat.toUInt16
  encode n := .int n.toNat
  flag n := .leaf (.int n.toNat)

instance : Setting UInt32 where
  decode v := (decodeNat (Nat.pow 2 32) "u32" v).map Nat.toUInt32
  encode n := .int n.toNat
  flag n := .leaf (.int n.toNat)

instance : Setting UInt64 where
  decode v := (decodeNat (Nat.pow 2 64) "u64" v).map Nat.toUInt64
  encode n := .int n.toNat
  flag n := .leaf (.int n.toNat)

instance : Setting Net.Socket where
  decode v := do
    match Net.Socket.ofText? (← decodeText "socket address" v) with
    | some a => .ok a
    | none => .error .badSocketAddress
  encode a := .text a.text
  flag a := .leaf (.shown a.text)

instance : Setting Duration where
  decode v := do
    let s ← decodeText "a duration" v
    match Duration.ofSpelled? s with
    | some d => .ok d
    | none => .error (.badValue (.text s) "a duration")
  encode d := .text d.spelledText
  flag d := .leaf (.duration d)

instance : Setting Retention where
  decode v := do
    match Retention.ofText (← decodeText "a string" v) with
    | .ok r => .ok r
    | .error fault => .error (.badRetention fault)
  encode r := .text r.text
  flag r := .leaf (.retention r)

/-- An absent value is null. -/
instance {α : Type} [Setting α] : Setting (Option α) where
  decode
    | .null => .ok none
    | v => (Setting.decode v).map some
  encode
    | none => .null
    | some a => Setting.encode a
  flag
    | none => .absent
    | some a => .present (Setting.flag a)

/-- Reads the elements of a list in order. -/
def decodeElements {α : Type} [Setting α] :
    List Value → Except DecodeError (List α)
  | [] => .ok []
  | v :: vs => do
    let a ← Setting.decode v
    let as ← decodeElements vs
    pure (a :: as)

/-- Null is read as the empty list. -/
instance {α : Type} [Setting α] : Setting (List α) where
  decode v := match v.untag with
    | .sequence vs => decodeElements vs
    | .null => .ok []
    | found => .error (.wrongType found "a sequence")
  encode as := .sequence (as.map Setting.encode)
  flag as := .list (as.map Setting.flag)

/-- Reads one of a few names: a text, or the tag of a null. -/
def decodeName {α : Type} (names : List (String × α)) (v : Value) :
    Except DecodeError α :=
  let find (name : String) : Except DecodeError α :=
    match names.lookup name with
    | some a => .ok a
    | none => .error (.unknownVariant name (names.map (·.1)))
  match v with
  | .text s => find s
  | .tagged tag content => do
    let a ← find (Yaml.bareTag tag)
    match content.untag with
    | .null => .ok a
    | found => .error (.wrongType found "unit")
  | found => .error (.wrongType found "a Value::Tagged enum")

end ContainerArgs.Settings
