import ContainerArgs.Flag.Tag
import ContainerArgs.Text.Quoted

/-!
# Rendered arguments and notes

What rendering a value yields: occurrences of its option, and notes about what
was left out.
-/

namespace ContainerArgs.Flag

/-- One occurrence of an option. -/
inductive Argument where
  | bare
  | valued (text : String)
deriving DecidableEq, Repr

/-- The token of an occurrence, for the hyphens and the name of its option. -/
def Argument.token (hyphens name : String) : Argument → String
  | .bare => hyphens ++ name
  | .valued text => hyphens ++ name ++ "=" ++ text

/-- The kinds of values that no option can hold. -/
inductive Unsupported where
  | map
  | channel
  | function
deriving DecidableEq, Repr

def Unsupported.name : Unsupported → String
  | .map => "map"
  | .channel => "channel"
  | .function => "function"

/-- Why something contributes nothing to a command line. -/
inductive Note where
  | nestedOptional (option : String)
  | unsupported (option : String) (kind : Unsupported)
  | notExported (field : String)
  | untagged (field : String)
  | emptyName (field : String)
  | alreadyEmitted (field option : String)
deriving DecidableEq, Repr

/-- The wording of a note, after its level. -/
def Note.message : Note → String
  | .nestedOptional option =>
    "DEBUG Ignoring nested optional value for option " ++ Text.quote option
  | .unsupported option kind =>
    "DEBUG Ignoring option " ++ Text.quote option ++ ": " ++ kind.name ++
      " values are not supported"
  | .notExported field => "TRACE Skipping non-exported field " ++ field
  | .untagged field => "TRACE Skipping untagged field " ++ field
  | .emptyName field =>
    "TRACE Skipping field " ++ field ++ " with empty option name"
  | .alreadyEmitted field option =>
    "TRACE Skipping field " ++ field ++ ": option " ++ Text.quote option ++
      " already emitted"

/-- Arguments and notes, each in order. -/
structure Rendering where
  arguments : List Argument
  notes : List Note
deriving DecidableEq, Repr

namespace Rendering

def empty : Rendering := ⟨[], []⟩

def argument (a : Argument) : Rendering := ⟨[a], []⟩

def note (n : Note) : Rendering := ⟨[], [n]⟩

def append (r s : Rendering) : Rendering :=
  ⟨r.arguments ++ s.arguments, r.notes ++ s.notes⟩

instance : Append Rendering := ⟨append⟩

@[simp] theorem arguments_append (r s : Rendering) :
    (r ++ s).arguments = r.arguments ++ s.arguments := rfl

@[simp] theorem notes_append (r s : Rendering) :
    (r ++ s).notes = r.notes ++ s.notes := rfl

@[simp] theorem empty_append (r : Rendering) :
    empty ++ r = r := rfl

@[simp] theorem append_empty (r : Rendering) :
    r ++ empty = r := by
  show append r empty = r
  simp [append, empty]

theorem append_assoc (r s t : Rendering) :
    r ++ s ++ t = r ++ (s ++ t) := by
  show append (append r s) t = append r (append s t)
  simp [append]

end Rendering

end ContainerArgs.Flag
