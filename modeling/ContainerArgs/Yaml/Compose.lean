import ContainerArgs.Yaml.Document
import ContainerArgs.Yaml.Plain

/-!
# Values of documents

The value that a node denotes.  Aliases are followed, at most a hundred times as
often as the document has events, and collections nest at most 128 deep.  The
name in a local tag stays with the value; the tags of the core types say how a
scalar is read.
-/

namespace ContainerArgs.Yaml

/-- What aliases stand for, with the latest nodes first, and how many of them
may be followed. -/
structure Aliases where
  targets : List (Nat × Node)
  limit : Nat

/-- A step of composing a value; it counts the aliases that were followed. -/
abbrev Compose := ReaderT Aliases (StateT Nat (Except Error))

namespace Compose

/-- The node that an alias stands for, or the node itself. -/
def follow : Node → Compose Node
  | .alias n => do
    let aliases ← read
    let count ← get
    set (count + 1)
    if aliases.limit < count + 1 then throw .tooManyAliases
    match aliases.targets.lookup n with
    | some target => return target
    | none => throw .unknownAnchor
  | n => return n

/-- How deep collections may nest. -/
def depthLimit : Nat := 128

/-- A value with the name in a local tag, if there is such a tag. -/
def withTag (tag : Option Tag) (v : Value) : Value :=
  match tag.bind Tag.localName? with
  | some name => .tagged name v
  | none => v

def coreScalar (type : CoreType) (text : String) : Except Error Value :=
  match type with
  | .null => if Plain.isNull text then .ok .null else .error .badScalar
  | .bool => match Plain.bool? text with
    | some b => .ok (.bool b)
    | none => .error .badScalar
  | .int => ((Plain.int? text).bind Plain.ofInt).getD (.error .badScalar)
  | .float => match Plain.float? text with
    | some x => .ok (.float x)
    | none => .error .badScalar

/-- What a scalar without a tag denotes. -/
def untaggedScalar (plain : Bool) (text : String) : Except Error Value :=
  if plain then Plain.resolve text else .ok (.text text)

def scalar (tag : Option Tag) (plain : Bool) (text : String) :
    Except Error Value :=
  match tag with
  | none => untaggedScalar plain text
  | some t =>
    if t.isLocal then (untaggedScalar plain text).map (withTag tag)
    else match t.coreType? with
      | some type => coreScalar type text
      | none => .ok (.text text)

/-- The entries of a mapping with distinct keys, from its nodes and a way to
read them. -/
def entries (readNode : Node → Compose Value) :
    List (Value × Value) → List (Node × Node) → Compose (List (Value × Value))
  | before, [] => return before.reverse
  | before, (k, v) :: es => do
    let key ← readNode k
    if before.any fun e => e.1.same key then throw .duplicateKey
    let value ← readNode v
    entries readNode ((key, value) :: before) es

/-- The value of a node in which collections nest at most as deep as given. -/
def value : Nat → Node → Compose Value
  | depth, n => do
    match ← follow n with
    | .scalar p plain text => scalar p.tag plain text
    | .sequence p elements =>
      match depth with
      | 0 => throw .tooDeep
      | depth + 1 =>
        return withTag p.tag (.sequence (← elements.mapM (value depth)))
    | .mapping p es =>
      match depth with
      | 0 => throw .tooDeep
      | depth + 1 =>
        return withTag p.tag (.mapping (← entries (value depth) [] es))
    | .alias _ => throw .unknownAnchor

/-- Runs a step on the document with a root. -/
def runOn {α : Type} (step : Node → Compose α) (root : Node) : Except Error α :=
  (((step root).run ⟨root.anchors.reverse, 100 * root.events⟩).run 0).map (·.1)

end Compose

/-- The value of a text; an empty one denotes null. -/
def Value.ofText (s : String) : Except Error Value := do
  match ← Node.ofText s.toList with
  | some root => Compose.runOn (Compose.value Compose.depthLimit) root
  | none => return .null

end ContainerArgs.Yaml
