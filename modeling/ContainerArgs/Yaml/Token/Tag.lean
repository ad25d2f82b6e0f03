import ContainerArgs.Number.Digits
import ContainerArgs.Yaml.Cursor
import ContainerArgs.Yaml.Token

/-!
# Anchors, tags and directives

Words that begin with `&`, `*`, `!` or, at the start of a line, `%`.  A tag is a
handle and a suffix; in its suffix a percent sign begins the hexadecimal form of
a byte.
-/

namespace ContainerArgs.Yaml.Cursor

/-- Reads the name of an anchor or an alias, after its mark. -/
def readAnchor (cur : Cursor) : Except Error (String × Cursor) :=
  let name := cur.run isNameChar
  let rest := cur.skipWhile isNameChar
  let ends := endsWord rest.rest || rest.rest.head?.any fun c =>
    c == '?' || c == ':' || c == ',' || c == ']' || c == '\x7d' || c == '%' ||
      c == '@' || c == '\x60'
  if name = [] ∨ !ends then .error .badAnchor
  else .ok (String.ofList name, rest)

/-- Whether a character may stand in a tag.  Commas and brackets may only
between angle brackets. -/
def isTagChar (verbatim : Bool) (c : Char) : Bool :=
  isNameChar c || c == ';' || c == '/' || c == '?' || c == ':' || c == '@' ||
    c == '&' || c == '=' || c == '+' || c == '$' || c == '.' || c == '!' ||
    c == '~' || c == '*' || c == '\'' || c == '(' || c == ')' || c == '%' ||
    (verbatim && (c == ',' || c == '[' || c == ']'))

/-- The number of bytes that follow the first byte of a character, as far as
that byte tells. -/
def bytesAfter? (b : UInt8) : Option Nat :=
  if b < 0x80 then some 0
  else if b < 0xC0 then none
  else if b < 0xE0 then some 1
  else if b < 0xF0 then some 2
  else if b < 0xF8 then some 3
  else none

/-- The number of bytes still due after an escaped byte, if it may stand where a
number of bytes of a character are due. -/
def dueAfter? (due : Nat) (b : UInt8) : Option Nat :=
  if due = 0 then bytesAfter? b
  else if 0x80 ≤ b ∧ b < 0xC0 then some (due - 1)
  else none

/-- The bytes of the characters of a tag, where a number of bytes of a character
are due.  These have to be escaped one after another. -/
def tagBytes? : Nat → List Char → Option (List UInt8)
  | due, [] => if due = 0 then some [] else none
  | due, '%' :: a :: b :: cs => do
    let n ← Number.readBase? 16 [a, b]
    let rest ← tagBytes? (← dueAfter? due n.toUInt8) cs
    pure (n.toUInt8 :: rest)
  | due, c :: cs =>
    if due = 0 ∧ c ≠ '%' then
      (tagBytes? 0 cs).map (Text.Utf8.encodeChar c ++ ·)
    else none

/-- Reads characters of a tag, after those of it that were read as a handle. -/
def readTagText (verbatim : Bool) (before : List Char) (cur : Cursor) :
    Except Error (Tag × Cursor) :=
  let chars := cur.run (isTagChar verbatim)
  if before = [] ∧ chars = [] then .error .badTag
  else match tagBytes? 0 chars with
    | some bytes =>
      .ok (.ofBytes (Text.Utf8.encode (before.drop 1) ++ bytes),
        cur.skipWhile (isTagChar verbatim))
    | none => .error .badTag

/-- Reads the handle of a tag: an exclamation mark, a name, and an exclamation
mark if there is one. -/
def readHandle (cur : Cursor) : List Char × Cursor :=
  let inner := cur.next
  let name := inner.run isNameChar
  let rest := inner.skipWhile isNameChar
  if rest.at? '!' then ('!' :: name ++ ['!'], rest.next)
  else ('!' :: name, rest)

/-- Whether a handle is closed by a second exclamation mark. -/
def isClosedHandle (handle : List Char) : Bool :=
  2 ≤ handle.length && handle.getLast? == some '!'

/-- Reads the handle and the suffix of a tag, at its exclamation mark. -/
def readTagParts (cur : Cursor) : Except Error ((String × Tag) × Cursor) := do
  if cur.next.at? '<' then
    let (suffix, rest) ← (cur.skip 2).readTagText true []
    if rest.at? '>' then .ok (("", suffix), rest.next) else .error .badTag
  else
    let (handle, rest) := cur.readHandle
    if isClosedHandle handle then
      let (suffix, rest) ← rest.readTagText false []
      .ok ((String.ofList handle, suffix), rest)
    else
      let (suffix, rest) ← rest.readTagText false handle
      .ok (if suffix.isEmpty then ("", .ofText "!") else ("!", suffix), rest)

def readTag (inFlow : Bool) (cur : Cursor) : Except Error (Token × Cursor) := do
  let ((handle, suffix), rest) ← cur.readTagParts
  if endsWord rest.rest || (inFlow && rest.at? ',') then
    .ok (.tag handle suffix, rest)
  else .error .badTag

def readVersionNumber (cur : Cursor) : Except Error (Nat × Cursor) :=
  let digits := cur.run Char.isDigit
  if 9 < digits.length then .error .badDirective
  else match Number.readNat? digits with
    | some n => .ok (n, cur.skipWhile Char.isDigit)
    | none => .error .badDirective

def readVersion (cur : Cursor) : Except Error (Token × Cursor) := do
  let (major, rest) ← (cur.skipWhile isSpace).readVersionNumber
  if rest.at? '.' then
    let (minor, rest) ← rest.next.readVersionNumber
    .ok (.versionDirective major minor, rest)
  else .error .badDirective

/-- Reads the handle of a tag directive and the text for which it stands. -/
def readTagDirective (cur : Cursor) : Except Error (Token × Cursor) := do
  let cur := cur.skipWhile isSpace
  if !cur.at? '!' then .error .badDirective
  let (handle, rest) := cur.readHandle
  if handle ≠ ['!'] ∧ !isClosedHandle handle then .error .badDirective
  if !rest.rest.head?.any isSpace then .error .badDirective
  let (expansion, rest) ← (rest.skipWhile isSpace).readTagText true []
  if endsWord rest.rest then
    .ok (.tagDirective (String.ofList handle) expansion, rest)
  else .error .badDirective

/-- Reads a directive, at its percent sign, with the rest of its line. -/
def readDirective (cur : Cursor) : Except Error (Token × Cursor) := do
  let name := cur.next.run isNameChar
  let rest := cur.next.skipWhile isNameChar
  if !endsWord rest.rest then .error .badDirective
  let (token, rest) ← match String.ofList name with
    | "YAML" => rest.readVersion
    | "TAG" => rest.readTagDirective
    | _ => .error .badDirective
  let rest := (rest.skipWhile isSpace).skipComment
  if endsLine rest.rest then .ok (token, rest.skipBreak)
  else .error .badDirective

end ContainerArgs.Yaml.Cursor
