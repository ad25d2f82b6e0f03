/-!
# Faults of manifest texts

Why a text does not denote a value.
-/

namespace ContainerArgs.Yaml

/-- A fault of a text. -/
inductive Error where
  | notUnicode
  | forbiddenCharacter
  | unexpectedCharacter
  | missingColon
  | misplacedKey
  | misplacedEntry
  | badIndentation
  | badDirective
  | badAnchor
  | badTag
  | badEscape
  | unclosedQuote
  | badBlockHeader
  | unexpectedToken
  | undefinedHandle
  | unknownAnchor
  | severalDocuments
  | missingDocument
  | tooDeep
  | tooManyAliases
  | duplicateKey
  | badScalar
  | integerOutOfRange
  | wrongShape
  | missingField
  | unknownKind
deriving DecidableEq, Repr

end ContainerArgs.Yaml
