import ContainerArgs.Yaml.Node
import ContainerArgs.Yaml.Token.Scanner

/-!
# Documents

The grammar of documents over tokens.  A text holds at most one document, which
directives and a marker may precede and a marker may follow.
-/

namespace ContainerArgs.Yaml

/-- What is known while a document is read: the tokens that are left, the tag
handles, and the names of anchors with their numbers, the latest first. -/
structure Reader where
  tokens : List Token
  handles : List (String × Tag)
  anchors : List (String × Nat)

abbrev Read := StateT Reader (Except Error)

namespace Read

def peek : Read (Option Token) := do
  return (← get).tokens.head?

/-- Passes over the next token. -/
def skip : Read Unit :=
  modify fun r => { r with tokens := r.tokens.drop 1 }

/-- Passes over the next token if it is the given one. -/
def accept (t : Token) : Read Bool := do
  if (← peek) = some t then
    skip
    return true
  else return false

/-- Whether the next token is one of those given. -/
def sees (ts : List Token) : Read Bool := do
  return (← peek).any ts.contains

/-- A tag with its handle replaced by that for which it stands. -/
def expandTag (handle : String) (suffix : Tag) : Read Tag := do
  if handle.isEmpty then return suffix
  match (← get).handles.lookup handle with
  | some expansion => return expansion ++ suffix
  | none => throw .undefinedHandle

def numberAnchor (name : String) : Read Nat := do
  let r ← get
  let names := r.anchors.filter fun a => a.1 != name
  set { r with anchors := (name, r.anchors.length) :: names }
  return r.anchors.length

/-- The anchor that may come next. -/
def anchor? : Read (Option Nat) := do
  match ← peek with
  | some (.anchor name) =>
    skip
    return some (← numberAnchor name)
  | _ => return none

/-- The tag that may come next. -/
def tag? : Read (Option Tag) := do
  match ← peek with
  | some (.tag handle suffix) =>
    skip
    return some (← expandTag handle suffix)
  | _ => return none

/-- The anchor and the tag of a node, in either order. -/
def properties : Read Properties := do
  let before ← anchor?
  let tag ← tag?
  if before.isSome || tag.isNone then return ⟨tag, before⟩
  let after ← anchor?
  return ⟨tag, after⟩

/-- A node of which nothing but a tag or an anchor is written. -/
def bare (p : Properties) : Read Node := do
  if p.tag.isSome || p.anchor.isSome then return .scalar p true ""
  else throw .unexpectedToken

/-- Passes over the comma before all elements of a flow collection but the
first. -/
def separator (first : Bool) : Read Unit := do
  if !first then
    if !(← accept .flowEntry) then throw .unexpectedToken

mutual

/-- A node, in a block collection or not, where a sequence may stand at the
indentation of the mapping around it or not. -/
def node : Nat → Bool → Bool → Read Node
  | 0, _, _ => throw .unexpectedToken
  | fuel + 1, block, indentless => do
    if let some (.alias name) ← peek then
      skip
      match (← get).anchors.lookup name with
      | some n => return .alias n
      | none => throw .unknownAnchor
    let p ← properties
    match ← peek with
    | some .blockEntry =>
      if indentless then return .sequence p (← indentlessEntries fuel)
      else bare p
    | some (.scalar plain text) =>
      skip
      return .scalar p plain text
    | some .flowSequenceStart =>
      skip
      return .sequence p (← flowElements fuel true)
    | some .flowMappingStart =>
      skip
      return .mapping p (← flowEntries fuel true)
    | some .blockSequenceStart =>
      if block then
        skip
        return .sequence p (← blockElements fuel)
      else bare p
    | some .blockMappingStart =>
      if block then
        skip
        return .mapping p (← blockEntries fuel)
      else bare p
    | _ => bare p

/-- The node before one of the given tokens, or the empty node if one of them
comes at once. -/
def nodeBefore (stops : List Token) (block indentless : Bool) : Nat → Read Node
  | 0 => throw .unexpectedToken
  | fuel + 1 => do
    if ← sees stops then return .empty else node fuel block indentless

/-- The elements of a block sequence, after its start. -/
def blockElements : Nat → Read (List Node)
  | 0 => throw .unexpectedToken
  | fuel + 1 => do
    if ← accept .blockEntry then
      let n ← nodeBefore [.blockEntry, .blockEnd] true false fuel
      return n :: (← blockElements fuel)
    else if ← accept .blockEnd then return []
    else throw .unexpectedToken

/-- The elements of a block sequence at the indentation of the mapping around
it. -/
def indentlessEntries : Nat → Read (List Node)
  | 0 => throw .unexpectedToken
  | fuel + 1 => do
    if ← accept .blockEntry then
      let n ← nodeBefore [.blockEntry, .key, .value, .blockEnd] true false fuel
      return n :: (← indentlessEntries fuel)
    else return []

def blockValue : Nat → Read Node
  | 0 => throw .unexpectedToken
  | fuel + 1 => do
    if ← accept .value then nodeBefore [.key, .value, .blockEnd] true true fuel
    else return .empty

/-- The entries of a block mapping, after its start. -/
def blockEntries : Nat → Read (List (Node × Node))
  | 0 => throw .unexpectedToken
  | fuel + 1 => do
    if ← accept .key then
      let k ← nodeBefore [.key, .value, .blockEnd] true true fuel
      let v ← blockValue fuel
      return (k, v) :: (← blockEntries fuel)
    else if ← accept .blockEnd then return []
    else throw .unexpectedToken

/-- The elements of a flow sequence, after its start or after an element. -/
def flowElements : Nat → Bool → Read (List Node)
  | 0, _ => throw .unexpectedToken
  | fuel + 1, first => do
    if ← accept .flowSequenceEnd then return []
    separator first
    if ← accept .key then
      let k ← pairKey fuel
      let v ← flowValue [.flowEntry, .flowSequenceEnd] fuel
      return .mapping ⟨none, none⟩ [(k, v)] :: (← flowElements fuel false)
    else if ← accept .flowSequenceEnd then return []
    else
      let n ← node fuel false false
      return n :: (← flowElements fuel false)

/-- The key of a single entry in a flow sequence.  Where it is missing, the
token in its place is passed over. -/
def pairKey : Nat → Read Node
  | 0 => throw .unexpectedToken
  | fuel + 1 => do
    if ← sees [.value, .flowEntry, .flowSequenceEnd] then
      skip
      return .empty
    else node fuel false false

/-- The value of an entry in a flow collection, where one of the given tokens
may follow. -/
def flowValue (stops : List Token) : Nat → Read Node
  | 0 => throw .unexpectedToken
  | fuel + 1 => do
    if ← accept .value then nodeBefore stops false false fuel else return .empty

/-- The entries of a flow mapping, after its start or after an entry. -/
def flowEntries : Nat → Bool → Read (List (Node × Node))
  | 0, _ => throw .unexpectedToken
  | fuel + 1, first => do
    if ← accept .flowMappingEnd then return []
    separator first
    if ← accept .key then
      let k ← nodeBefore [.value, .flowEntry, .flowMappingEnd] false false fuel
      let v ← flowValue [.flowEntry, .flowMappingEnd] fuel
      return (k, v) :: (← flowEntries fuel false)
    else if ← accept .flowMappingEnd then return []
    else
      let k ← node fuel false false
      return (k, .empty) :: (← flowEntries fuel false)

end

/-- The directives before a document: at most one version, and handles that
differ. -/
def directives : Nat → Bool → Read Unit
  | 0, _ => return ()
  | fuel + 1, versioned => do
    match ← peek with
    | some (.versionDirective major minor) =>
      if versioned || major != 1 || (minor != 1 && minor != 2) then
        throw .badDirective
      skip
      directives fuel true
    | some (.tagDirective handle expansion) =>
      let r ← get
      if (r.handles.lookup handle).isSome then throw .badDirective
      set { r with handles := r.handles ++ [(handle, expansion)] }
      skip
      directives fuel versioned
    | _ => return ()

/-- The handles that every document has, after those of its directives. -/
def addDefaultHandles : Read Unit :=
  modify fun r =>
    { r with
      handles := r.handles ++
        [("!", .ofText "!"), ("!!", .ofText "tag:yaml.org,2002:")] }

/-- Whether the next token belongs to the lines before a document. -/
def seesHeader : Read Bool := do
  return (← peek).any fun t => match t with
    | .versionDirective _ _ => true
    | .tagDirective _ _ => true
    | .documentStart => true
    | _ => false

/-- Whether there is no content where a document has begun. -/
def seesNoContent : Read Bool := do
  return (← seesHeader) || (← peek).all (· == .documentEnd)

/-- The content of a document, after the lines before it. -/
def content (fuel : Nat) : Read Node := do
  if ← seesHeader then
    directives fuel false
    addDefaultHandles
    if !(← accept .documentStart) then throw .unexpectedToken
    if ← seesNoContent then return .empty else node fuel true false
  else
    addDefaultHandles
    node fuel true false

/-- The document of a text, if there is one; nothing but markers of its end may
follow. -/
def document (fuel : Nat) : Read (Option Node) := do
  if (← peek).isNone then return none
  let root ← content fuel
  if (← get).tokens.all (· == .documentEnd) then return some root
  else throw .severalDocuments

end Read

def Node.ofTokens (tokens : List Token) : Except Error (Option Node) :=
  ((Read.document (4 * tokens.length + 4)).run ⟨tokens, [], []⟩).map (·.1)

def Node.ofText (cs : List Char) : Except Error (Option Node) := do
  Node.ofTokens (← Token.scan cs)

end ContainerArgs.Yaml
