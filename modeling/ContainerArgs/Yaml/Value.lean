import ContainerArgs.Number.Shortest
import ContainerArgs.Text.Quoted

/-!
# Free-form values

The values of the manifest notation: scalars, sequences, mappings and tagged
values.  Mappings keep the order of their entries.
-/

namespace ContainerArgs.Yaml

/-- A free-form value. -/
inductive Value where
  | null
  | bool (b : Bool)
  | int (n : Int)
  | float (x : Number.Binary)
  | text (s : String)
  | sequence (elements : List Value)
  | mapping (entries : List (Value × Value))
  | tagged (tag : String) (v : Value)
deriving Inhabited, Repr

/-- A tag without the exclamation mark at its start; a lone mark stays. -/
def bareTag (tag : String) : String :=
  match tag.toList with
  | '!' :: c :: cs => String.ofList (c :: cs)
  | _ => tag

namespace Value

/-- The value inside all of its tags. -/
def untag : Value → Value
  | .tagged _ v => v.untag
  | v => v

/-- How messages name a value. -/
def describe : Value → String
  | .null => "unit value"
  | .bool b => "boolean `" ++ (if b then "true" else "false") ++ "`"
  | .int n => "integer `" ++ Number.intText n ++ "`"
  | .float x => "floating point `" ++ x.pointedText ++ "`"
  | .text s => "string " ++ Text.quote s
  | .sequence _ => "sequence"
  | .mapping _ => "map"
  | .tagged _ _ => "enum"

mutual

/-- Whether two values are equal as keys.  The order of the entries of a mapping
does not matter. -/
def same : Value → Value → Bool
  | .null, .null => true
  | .bool a, .bool b => a == b
  | .int a, .int b => a == b
  | .float a, .float b => a.same b
  | .text a, .text b => a == b
  | .sequence xs, .sequence ys => sameElements xs ys
  | .mapping xs, .mapping ys => xs.length == ys.length && allIn xs ys
  | .tagged s v, .tagged t w => bareTag s == bareTag t && same v w
  | _, _ => false

/-- Whether two lists of values are equal element by element. -/
def sameElements : List Value → List Value → Bool
  | [], [] => true
  | x :: xs, y :: ys => same x y && sameElements xs ys
  | _, _ => false

/-- Whether each entry of one mapping is one of the entries of another. -/
def allIn : List (Value × Value) → List (Value × Value) → Bool
  | [], _ => true
  | e :: es, fs => (fs.any fun f => sameEntry e f) && allIn es fs

/-- Whether two entries have equal keys and equal values. -/
def sameEntry : Value × Value → Value × Value → Bool
  | (k, v), (l, w) => same k l && same v w

end

end Value

end ContainerArgs.Yaml
