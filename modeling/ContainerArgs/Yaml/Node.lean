import ContainerArgs.Yaml.Token

/-!
# Nodes

The tree of a document.  Nodes may have tags and anchors, and an alias stands
for an anchored node.  Anchors are numbered: a name gets as its number how many
names there were before it, whether or not it is new, so that a number can be
given twice; an alias then stands for the last node with its number.
-/

namespace ContainerArgs.Yaml

/-- The tag and the number of the anchor of a node. -/
structure Properties where
  tag : Option Tag
  anchor : Option Nat
deriving Repr

/-- A node of a document. -/
inductive Node where
  | scalar (p : Properties) (plain : Bool) (text : String)
  | sequence (p : Properties) (elements : List Node)
  | mapping (p : Properties) (entries : List (Node × Node))
  | alias (target : Nat)
deriving Repr

namespace Node

def properties : Node → Properties
  | .scalar p _ _ => p
  | .sequence p _ => p
  | .mapping p _ => p
  | .alias _ => ⟨none, none⟩

/-- The node without a text that stands where nothing is written. -/
def empty : Node :=
  .scalar ⟨none, none⟩ true ""

mutual

/-- The number of events in which a node is told: one for a scalar or an alias,
and for a collection its start, its end and those of its content. -/
def events : Node → Nat
  | .scalar _ _ _ => 1
  | .alias _ => 1
  | .sequence _ elements => 2 + eventsOfElements elements
  | .mapping _ entries => 2 + eventsOfEntries entries

/-- The number of events of several nodes. -/
def eventsOfElements : List Node → Nat
  | [] => 0
  | n :: ns => n.events + eventsOfElements ns

def eventsOfEntries : List (Node × Node) → Nat
  | [] => 0
  | e :: es => eventsOfEntry e + eventsOfEntries es

def eventsOfEntry : Node × Node → Nat
  | (k, v) => k.events + v.events

end

def labelled (n : Node) : List (Nat × Node) :=
  (n.properties.anchor.map (·, n)).toList

mutual

/-- The anchored nodes with their numbers, in the order in which they begin. -/
def anchors : Node → List (Nat × Node)
  | .scalar p plain text => labelled (.scalar p plain text)
  | .alias _ => []
  | .sequence p elements =>
    labelled (.sequence p elements) ++ anchorsOfElements elements
  | .mapping p entries =>
    labelled (.mapping p entries) ++ anchorsOfEntries entries

/-- The anchored nodes among several. -/
def anchorsOfElements : List Node → List (Nat × Node)
  | [] => []
  | n :: ns => n.anchors ++ anchorsOfElements ns

/-- The anchored nodes among the entries of a mapping. -/
def anchorsOfEntries : List (Node × Node) → List (Nat × Node)
  | [] => []
  | e :: es => anchorsOfEntry e ++ anchorsOfEntries es

def anchorsOfEntry : Node × Node → List (Nat × Node)
  | (k, v) => k.anchors ++ v.anchors

end

def anchored? (root : Node) (target : Nat) : Option Node :=
  root.anchors.reverse.lookup target

end Node

end ContainerArgs.Yaml
