import ContainerArgs.Flag.Value

/-!
# Fields and records

An option record is a list of fields in declaration order and a list of extra
tokens.  Only exported fields with a tag take part in encoding.
-/

namespace ContainerArgs.Flag

/-- One field of an option record. -/
structure Field where
  ident : String
  tag : Option String
  exported : Bool
  value : Value
deriving Repr

namespace Field

def tagged (ident tag : String) (value : Value) : Field :=
  ⟨ident, some tag, true, value⟩

def untagged (ident : String) (value : Value) : Field :=
  ⟨ident, none, true, value⟩

/-- Whether the field takes part in encoding. -/
def isWalked (f : Field) : Bool :=
  f.exported && f.tag.isSome

/-- A description of the field for messages, without its value. -/
def describe (f : Field) : String :=
  let tag := match f.tag with
    | some raw => "Some(" ++ Text.quote raw ++ ")"
    | none => "None"
  "Field \x7b ident: " ++ Text.quote f.ident ++ ", tag: " ++ tag ++
    ", exported: " ++
    (if f.exported then "true" else "false") ++ ", .. \x7d"

end Field

/-- The fields and the extra tokens of an option record. -/
structure Record where
  fields : List Field
  extra : List String
deriving Repr

/-- The fields that take part in encoding. -/
def Record.walk (r : Record) : List Field :=
  r.fields.filter Field.isWalked

/-- An option record, possibly behind transparent wrappers. -/
inductive Handle where
  | record (r : Record)
  | wrapped (w : Wrapper) (h : Handle)
deriving Repr

namespace Handle

def fields : Handle → List Field
  | .record r => r.fields
  | .wrapped _ h => h.fields

def extra : Handle → List String
  | .record r => r.extra
  | .wrapped _ h => h.extra

/-- The record that a handle leads to. -/
def toRecord (h : Handle) : Record :=
  ⟨h.fields, h.extra⟩

end Handle

end ContainerArgs.Flag
