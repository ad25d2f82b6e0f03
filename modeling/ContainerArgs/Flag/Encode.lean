import ContainerArgs.Flag.Field
import ContainerArgs.Flag.Render

/-!
# Encoding option records

The fields of a record are rendered in declaration order.  The first field that
yields an argument claims the name of its option, and later fields with that
name are left out; a field that yields nothing claims nothing.  The extra tokens
come last, as they are.
-/

namespace ContainerArgs.Flag

/-- The tokens of a record, and the notes about its fields. -/
structure Encoding where
  arguments : List String
  notes : List Note
deriving DecidableEq, Repr

/-- What becomes of one field: it is skipped for a reason, or rendered under the
name of its option. -/
inductive Outcome where
  | skipped (reason : Note)
  | rendered (name : String) (tokens : List String) (notes : List Note)
deriving DecidableEq, Repr

namespace Outcome

def tokens : Outcome → List String
  | .skipped _ => []
  | .rendered _ tokens _ => tokens

def notes : Outcome → List Note
  | .skipped reason => [reason]
  | .rendered _ _ notes => notes

/-- The names claimed so far, together with the one that the field claims. -/
def claim (claimed : List String) : Outcome → List String
  | .skipped _ => claimed
  | .rendered name tokens _ =>
    if tokens.isEmpty then claimed else name :: claimed

end Outcome

namespace Field

/-- The tokens and notes of a field's value under a tag. -/
def renderUnder (f : Field) (tag : Tag) : Outcome :=
  let rendering := f.value.render tag .plain
  .rendered tag.name
    (rendering.arguments.map (Argument.token tag.hyphens tag.name))
    rendering.notes

/-- What becomes of a field when some names are claimed already. -/
def outcome (claimed : List String) (f : Field) : Outcome :=
  if !f.exported then .skipped (.notExported f.ident)
  else match f.tag with
    | none => .skipped (.untagged f.ident)
    | some raw =>
      let tag := Tag.parse raw
      if tag.name.isEmpty then .skipped (.emptyName f.ident)
      else if claimed.contains tag.name then
        .skipped (.alreadyEmitted f.ident tag.name)
      else f.renderUnder tag

end Field

/-- What becomes of each field, given the names claimed before. -/
def outcomes : List String → List Field → List Outcome
  | _, [] => []
  | claimed, f :: fs =>
    let o := f.outcome claimed
    o :: outcomes (o.claim claimed) fs

/-- The tokens of a record and the notes about it. -/
def Record.encode (r : Record) : Encoding :=
  let os := outcomes [] r.fields
  ⟨os.flatMap Outcome.tokens ++ r.extra, os.flatMap Outcome.notes⟩

/-- The tokens of a record that come from its fields. -/
def Record.fieldTokens (r : Record) : List String :=
  (outcomes [] r.fields).flatMap Outcome.tokens

/-- The tokens and notes of the record that a handle leads to. -/
def Handle.encode (h : Handle) : Encoding :=
  h.toRecord.encode

/-- The tokens alone, as asked of the handle itself. -/
def Handle.arguments (h : Handle) : List String :=
  h.encode.arguments

end ContainerArgs.Flag
