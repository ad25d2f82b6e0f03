import ContainerArgs.Duration.Clock
import ContainerArgs.Duration.Retention
import ContainerArgs.Flag.Argument
import ContainerArgs.Number.Shortest
import ContainerArgs.Text.Path

/-!
# Values of options

A value is a tree: single values at the leaves, and above them lists, optional
values and transparent wrappers.  Each single value has a text, and each type of
value a zero.
-/

namespace ContainerArgs.Flag

/-- A value known only by its text, which may be unset. -/
structure Renderable where
  text : Option String
deriving DecidableEq, Repr

namespace Renderable

def isSet (r : Renderable) : Bool :=
  r.text.isSome

/-- Whether there is no text, or an empty one. -/
def isZero (r : Renderable) : Bool :=
  r.text.all String.isEmpty

def describe (r : Renderable) : String :=
  match r.text with
  | some s => "Renderable(" ++ Text.quote s ++ ")"
  | none => "Renderable(unset)"

end Renderable

/-- A single value.  One that is `shown` is any value of which only its display
text matters, such as an address. -/
inductive Leaf where
  | text (s : String)
  | path (p : Text.FilePath)
  | bool (b : Bool)
  | int (n : Int)
  | float (x : Number.Binary)
  | shown (s : String)
  | duration (d : Duration)
  | retention (r : Retention)
  | renderable (r : Renderable)
  | unsupported (kind : Unsupported)
deriving DecidableEq, Repr

namespace Leaf

/-- Whether the value is the zero of its type.  Unsupported values have no
zero. -/
def isZero : Leaf → Bool
  | .text s => s.isEmpty
  | .path p => p.isEmpty
  | .bool b => !b
  | .int n => n == 0
  | .float x => x.isZero
  | .shown s => s.isEmpty
  | .duration d => d.isZero
  | .retention r => r.isZero
  | .renderable r => r.isZero
  | .unsupported _ => false

def text? : Leaf → Option String
  | .text s => some s
  | .path p => some p.text
  | .bool b => some (if b then "true" else "false")
  | .int n => some (Number.intText n)
  | .float x => some x.text
  | .shown s => some s
  | .duration d => some d.clockText
  | .retention r => some r.text
  | .renderable r => r.text
  | .unsupported _ => none

/-- The arguments of the value, zero or not.  Where the tag takes no values, a
true boolean is the bare option and a false one nothing. -/
def arguments (tag : Tag) : Leaf → List Argument
  | .bool b =>
    if tag.noval then (if b then [.bare] else [])
    else [.valued (if b then "true" else "false")]
  | l => l.text?.toList.map .valued

/-- The notes about the value: unsupported ones are reported. -/
def notes (tag : Tag) : Leaf → List Note
  | .unsupported kind => [.unsupported tag.name kind]
  | _ => []

/-- The value rendered, zero or not. -/
def render (tag : Tag) (l : Leaf) : Rendering :=
  ⟨l.arguments tag, l.notes tag⟩

end Leaf

/-- The transparent wrappers. -/
inductive Wrapper where
  | boxed
  | borrowed
deriving DecidableEq, Repr

/-- A value of an option. -/
inductive Value where
  | leaf (l : Leaf)
  | list (elements : List Value)
  | absent
  | present (v : Value)
  | wrapped (w : Wrapper) (v : Value)
deriving Repr

end ContainerArgs.Flag
