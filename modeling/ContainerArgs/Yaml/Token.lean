import ContainerArgs.Yaml.Error
import ContainerArgs.Yaml.Tag

/-!
# Tokens

The words of the notation.  Indentation is made explicit: block collections
begin and end with tokens of their own, and the keys of mappings are marked.
-/

namespace ContainerArgs.Yaml

/-- A word of the notation.  Only the difference between plain scalars and all
others matters later. -/
inductive Token where
  | versionDirective (major minor : Nat)
  | tagDirective (handle : String) (expansion : Tag)
  | documentStart
  | documentEnd
  | blockSequenceStart
  | blockMappingStart
  | blockEnd
  | flowSequenceStart
  | flowSequenceEnd
  | flowMappingStart
  | flowMappingEnd
  | blockEntry
  | flowEntry
  | key
  | value
  | alias (name : String)
  | anchor (name : String)
  | tag (handle : String) (suffix : Tag)
  | scalar (plain : Bool) (text : String)
deriving DecidableEq, Repr

end ContainerArgs.Yaml
