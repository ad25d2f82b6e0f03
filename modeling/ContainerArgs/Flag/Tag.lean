import ContainerArgs.Text.Split

/-!
# Option tags

A tag is a name and modifiers, separated by commas.  Modifiers other than the
two below are kept and have no effect. Nothing is trimmed: a tag is its parts,
and joining them with commas gives the text back.
-/

namespace ContainerArgs.Flag

/-- What a tag says about an option. -/
structure Tag where
  name : String
  modifiers : List String
deriving DecidableEq, Repr

namespace Tag

def parse (raw : String) : Tag :=
  let parts := Text.split ',' raw.toList
  ⟨String.ofList parts.1, parts.2.map String.ofList⟩

def raw (t : Tag) : String :=
  String.ofList (Text.join ',' (t.name.toList, t.modifiers.map String.toList))

def has (t : Tag) (modifier : String) : Bool :=
  t.modifiers.contains modifier

/-- Whether a true boolean is written as the bare option, and a false one not at
all. -/
def noval (t : Tag) : Bool :=
  t.has "noval"

/-- Whether the option is written with one hyphen whatever its name. -/
def singleHyphen (t : Tag) : Bool :=
  t.has "single-hyphen"

/-- The hyphens before the name: one for names of one character, else two. -/
def hyphens (t : Tag) : String :=
  if t.singleHyphen ∨ t.name.length = 1 then "-" else "--"

end Tag

end ContainerArgs.Flag
