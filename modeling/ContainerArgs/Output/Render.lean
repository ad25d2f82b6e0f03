import ContainerArgs.Output.Json
import ContainerArgs.Yaml.Printer

/-!
# Rendered components

Named argument vectors, written as a YAML list, as a JSON array, or as lines:
one argument a line, with an empty line between components.
-/

namespace ContainerArgs.Output

/-- A component with its arguments. -/
structure Rendered where
  name : String
  args : List String
deriving DecidableEq, Repr

/-- The formats of the output. -/
inductive Format where
  | yaml
  | json
  | lines
deriving DecidableEq, Repr

namespace Format

/-- The name of a format on the command line. -/
def text : Format → String
  | yaml => "yaml"
  | json => "json"
  | lines => "lines"

def ofText? (s : String) : Option Format :=
  [("yaml", yaml), ("json", json), ("lines", lines)].lookup s

end Format

/-- The columns by which the lines of a text are indented in the YAML list. -/
def textIndent : Nat := 4

def yamlEntry (r : Rendered) : List Char :=
  let args :=
    if r.args.isEmpty then "  args: []\n".toList
    else
      "  args:\n".toList ++ r.args.flatMap fun a =>
        "  - ".toList ++ Yaml.Printer.textLine textIndent a
  "- name: ".toList ++ Yaml.Printer.textLine textIndent r.name ++ args

def yamlText (rs : List Rendered) : List Char :=
  if rs.isEmpty then "[]\n".toList else rs.flatMap yamlEntry

/-- The items of a JSON array or object, one a line with a comma between
them. -/
def jsonLines (indent : String) : List (List Char) → List Char
  | [] => []
  | [item] => indent.toList ++ item ++ ['\n']
  | item :: items =>
    indent.toList ++ item ++ [',', '\n'] ++ jsonLines indent items

/-- A JSON array whose items stand on lines with the given indentation. -/
def jsonArray (outer inner : String) (items : List (List Char)) : List Char :=
  if items.isEmpty then ['[', ']']
  else ['[', '\n'] ++ jsonLines inner items ++ outer.toList ++ [']']

def jsonEntry (r : Rendered) : List Char :=
  let name := "\"name\": ".toList ++ jsonText r.name
  let args :=
    "\"args\": ".toList ++ jsonArray "    " "      " (r.args.map jsonText)
  ['\x7b', '\n'] ++ jsonLines "    " [name, args] ++ "  \x7d".toList

def jsonDocument (rs : List Rendered) : List Char :=
  jsonArray "" "  " (rs.map jsonEntry) ++ ['\n']

def block (r : Rendered) : List Char :=
  r.args.flatMap fun a => a.toList ++ ['\n']

/-- Blocks of lines with an empty line between them. -/
def joinBlocks : List (List Char) → List Char
  | [] => []
  | [b] => b
  | b :: bs => b ++ ['\n'] ++ joinBlocks bs

def render (format : Format) (rs : List Rendered) : String :=
  String.ofList <| match format with
    | .yaml => yamlText rs
    | .json => jsonDocument rs
    | .lines => joinBlocks (rs.map block)

end ContainerArgs.Output
