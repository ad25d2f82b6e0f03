import ContainerArgs.Text.Utf8

/-!
# File paths

A path is any sequence of bytes.  Its text shows malformed parts as replacement
characters.
-/

namespace ContainerArgs.Text

/-- The path of a file. -/
structure FilePath where
  bytes : List UInt8
deriving DecidableEq, Repr

namespace FilePath

instance : Inhabited FilePath := ⟨⟨[]⟩⟩

def ofText (s : String) : FilePath :=
  ⟨Utf8.encode s.toList⟩

def isEmpty (p : FilePath) : Bool :=
  p.bytes.isEmpty

def text (p : FilePath) : String :=
  String.ofList (Utf8.decodeLossy p.bytes)

end FilePath

end ContainerArgs.Text
