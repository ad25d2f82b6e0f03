import ContainerArgs.Text.Utf8

/-!
# Tags

A tag says what a node is meant to be.  It is a sequence of bytes without zeros,
most often the form of a text.  Local tags begin with an exclamation mark and
carry a name; some of the others name the core types of scalars.
-/

namespace ContainerArgs.Yaml

open Text

/-- The tag of a node. -/
structure Tag where
  bytes : List UInt8
deriving DecidableEq, Repr

/-- The types of scalars that tags can name, apart from texts. -/
inductive CoreType where
  | null
  | bool
  | int
  | float
deriving DecidableEq, Repr

namespace Tag

/-- The tag at the start of a sequence of bytes, which ends before the first
zero. -/
def ofBytes (bs : List UInt8) : Tag :=
  ⟨bs.takeWhile (· ≠ 0)⟩

def ofText (s : String) : Tag :=
  ofBytes (Utf8.encode s.toList)

def isEmpty (t : Tag) : Bool :=
  t.bytes.isEmpty

def append (t u : Tag) : Tag :=
  ⟨t.bytes ++ u.bytes⟩

instance : Append Tag := ⟨append⟩

def mark : UInt8 := 0x21

/-- Whether the tag begins with the mark of local tags. -/
def isLocal (t : Tag) : Bool :=
  t.bytes.head? == some mark

/-- The name in a local tag: what follows the mark, or else the mark itself.
Bytes that form no text are no name. -/
def localName? (t : Tag) : Option String :=
  if t.isLocal then
    let rest := t.bytes.drop 1
    (Utf8.decode? (if rest = [] then [mark] else rest)).map String.ofList
  else none

def coreTypes : List (Tag × CoreType) :=
  [(ofText "tag:yaml.org,2002:null", .null),
    (ofText "tag:yaml.org,2002:bool", .bool),
    (ofText "tag:yaml.org,2002:int", .int),
    (ofText "tag:yaml.org,2002:float", .float)]

def coreType? (t : Tag) : Option CoreType :=
  coreTypes.lookup t

end Tag

end ContainerArgs.Yaml
