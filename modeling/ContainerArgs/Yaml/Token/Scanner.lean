import ContainerArgs.Yaml.Token.Scalar

/-!
# Scanning tokens

A text is read word by word.  Outside flow collections the column of a word
opens and closes block collections.  A word that could be the key of a mapping
is remembered until the end of its line, and when a colon follows, the token
that marks the key is put before it.
-/

namespace ContainerArgs.Yaml

/-- A place where the key of a mapping may have begun: the tokens before it,
whether it has to be a key, and where it is in the text. -/
structure KeyMark where
  position : Nat
  required : Bool
  index : Nat
  line : Nat
  column : Nat

/-- How far a text has been scanned. -/
structure Scanner where
  cursor : Cursor
  tokens : Array Token
  keyAllowed : Bool
  key : Option KeyMark
  outerKeys : List (Option KeyMark)
  indents : List Nat

namespace Scanner

def start (cs : List Char) : Scanner :=
  ⟨Cursor.start cs, #[], true, none, [], []⟩

def inFlow (s : Scanner) : Bool :=
  !s.outerKeys.isEmpty

/-- The column of the innermost block collection. -/
def indent (s : Scanner) : Option Nat :=
  s.indents.head?

/-- The least column of what belongs to the innermost block collection. -/
def contentIndent (s : Scanner) : Nat :=
  match s.indent with
  | some n => n + 1
  | none => 0

def push (t : Token) (s : Scanner) : Scanner :=
  { s with tokens := s.tokens.push t }

/-- The scanner with a token put at a position among the others. -/
def insert (position : Nat) (t : Token) (s : Scanner) : Scanner :=
  { s with tokens := s.tokens.insertIdxIfInBounds position t }

def moveTo (cur : Cursor) (s : Scanner) : Scanner :=
  { s with cursor := cur }

/-- The scanner with keys allowed or not from here on. -/
def allowKey (b : Bool) (s : Scanner) : Scanner :=
  { s with keyAllowed := b }

/-! ## Space between words -/

/-- Passes over blanks, comments and line breaks.  A byte order mark may begin
any line.  A tab counts as a blank only where no key may begin, and a new line
of a block collection may begin with a key. -/
def skipSpace : Nat → Scanner → Scanner
  | 0, s => s
  | fuel + 1, s =>
    let cur :=
      if s.cursor.column == 0 && s.cursor.at? '\ufeff' then s.cursor.next
      else s.cursor
    let tabs := s.inFlow || !s.keyAllowed
    let cur :=
      (cur.skipWhile fun c => c == ' ' || (tabs && c == '\t')).skipComment
    if cur.rest.head?.any isBreak then
      skipSpace fuel
        { s with
          cursor := cur.skipBreak
          keyAllowed := s.keyAllowed || !s.inFlow }
    else s.moveTo cur

/-! ## Indentation -/

/-- Opens a block collection at a column that is further right than the
innermost one; its first token goes to a position among the others. -/
def openBlock (column position : Nat) (t : Token) (s : Scanner) : Scanner :=
  if s.inFlow || s.indent.any (column ≤ ·) then s
  else { s.insert position t with indents := column :: s.indents }

/-- Closes the given block collections as far as they are further right than a
column; none closes all of them. -/
def closeIndents (column : Option Nat) :
    List Nat → Array Token → List Nat × Array Token
  | [], tokens => ([], tokens)
  | n :: ns, tokens =>
    if column.all (· < n) then closeIndents column ns (tokens.push .blockEnd)
    else (n :: ns, tokens)

/-- Closes the block collections that are further right than a column; none
closes all of them. -/
def closeBlocks (column : Option Nat) (s : Scanner) : Scanner :=
  if s.inFlow then s
  else
    let closed := closeIndents column s.indents s.tokens
    { s with indents := closed.1, tokens := closed.2 }

/-! ## Keys -/

/-- Forgets where a key may have begun.  It is a fault if there had to be a
key. -/
def dropKey (s : Scanner) : Except Error Scanner :=
  if s.key.any (·.required) then .error .missingColon
  else .ok { s with key := none }

/-- Remembers that a key may begin here. -/
def markKey (s : Scanner) : Except Error Scanner :=
  if s.keyAllowed then do
    let cur := s.cursor
    let required := !s.inFlow && s.indent == some cur.column
    let s ← s.dropKey
    .ok { s with
      key := some ⟨s.tokens.size, required, cur.index, cur.line, cur.column⟩ }
  else .ok s

/-- Whether a key that began at a mark would have to be complete by now: it may
not go over several lines, nor over more than 1024 bytes. -/
def isStale (s : Scanner) (k : KeyMark) : Bool :=
  k.line < s.cursor.line || k.index + 1024 < s.cursor.index

/-- Forgets the keys that would have to be complete by now. -/
def dropStaleKeys (s : Scanner) : Except Error Scanner :=
  let stale (k : Option KeyMark) : Bool := k.any s.isStale
  let keep (k : Option KeyMark) : Option KeyMark := if stale k then none else k
  if (s.key :: s.outerKeys).any fun k => stale k && k.any (·.required) then
    .error .missingColon
  else .ok { s with key := keep s.key, outerKeys := s.outerKeys.map keep }

/-! ## Words -/

/-- Adds a token of a number of characters. -/
def take (n : Nat) (t : Token) (s : Scanner) : Scanner :=
  (s.push t).moveTo (s.cursor.skip n)

/-- Adds the token of a document's start or end. -/
def takeMarker (t : Token) (s : Scanner) : Except Error Scanner := do
  let s ← (s.closeBlocks none).dropKey
  .ok ((s.allowKey false).take 3 t)

def takeDirective (s : Scanner) : Except Error Scanner := do
  let s ← (s.closeBlocks none).dropKey
  let (token, rest) ← s.cursor.readDirective
  .ok (((s.allowKey false).push token).moveTo rest)

/-- Adds the opening bracket of a flow collection. -/
def openFlow (t : Token) (s : Scanner) : Except Error Scanner := do
  let s ← s.markKey
  .ok ({ s with
    key := none
    outerKeys := s.key :: s.outerKeys
    keyAllowed := true }.take 1 t)

/-- Adds the closing bracket of a flow collection. -/
def closeFlow (t : Token) (s : Scanner) : Except Error Scanner := do
  let s ← s.dropKey
  let s := match s.outerKeys with
    | k :: ks => { s with key := k, outerKeys := ks }
    | [] => s
  .ok ((s.allowKey false).take 1 t)

/-- Adds the comma of a flow collection. -/
def takeComma (s : Scanner) : Except Error Scanner := do
  let s ← s.dropKey
  .ok ((s.allowKey true).take 1 .flowEntry)

/-- Adds the dash of a block sequence. -/
def takeDash (s : Scanner) : Except Error Scanner := do
  if !s.inFlow && !s.keyAllowed then throw .misplacedEntry
  let s ←
    (s.openBlock s.cursor.column s.tokens.size .blockSequenceStart).dropKey
  .ok ((s.allowKey true).take 1 .blockEntry)

/-- Adds the question mark of a key. -/
def takeQuestion (s : Scanner) : Except Error Scanner := do
  if !s.inFlow && !s.keyAllowed then throw .misplacedKey
  let s ← (s.openBlock s.cursor.column s.tokens.size .blockMappingStart).dropKey
  .ok ((s.allowKey (!s.inFlow)).take 1 .key)

/-- Adds the colon before a value.  If a key may have begun, its mark is put
before it. -/
def takeColon (s : Scanner) : Except Error Scanner :=
  match s.key with
  | some k =>
    let s :=
      (s.insert k.position .key).openBlock k.column k.position
        .blockMappingStart
    .ok ({ s with key := none, keyAllowed := false }.take 1 .value)
  | none =>
    if !s.inFlow && !s.keyAllowed then .error .misplacedKey
    else
      let s := s.openBlock s.cursor.column s.tokens.size .blockMappingStart
      .ok ((s.allowKey (!s.inFlow)).take 1 .value)

/-- Adds a word that may be a key. -/
def takeWord (read : Scanner → Except Error (Token × Cursor)) (s : Scanner) :
    Except Error Scanner := do
  let s ← s.markKey
  let (token, rest) ← read s
  .ok (((s.allowKey false).push token).moveTo rest)

/-- Adds a plain scalar.  After a break a key may begin. -/
def takePlain (s : Scanner) : Except Error Scanner := do
  let s ← s.markKey
  let scalar ← s.cursor.readPlain s.inFlow s.contentIndent
  .ok (((s.allowKey scalar.broken).push
    (.scalar true (String.ofList scalar.text))).moveTo scalar.cursor)

def takeBlock (folded : Bool) (s : Scanner) : Except Error Scanner := do
  let s ← s.dropKey
  let (token, rest) ← s.cursor.readBlock folded s.indent
  .ok (((s.allowKey true).push token).moveTo rest)

/-- Whether a plain scalar begins with a text. -/
def startsPlain (inFlow : Bool) (cs : List Char) : Bool :=
  match cs with
  | [] => false
  | c :: after =>
    !(isGap c || isIndicator c) || (c == '-' && !after.head?.any isSpace) ||
      (!inFlow && (c == '?' || c == ':') && !endsWord after)

/-- Adds the word that begins here. -/
def takeToken (s : Scanner) : Except Error Scanner :=
  let after := s.cursor.rest.drop 1
  if s.cursor.column == 0 && s.cursor.at? '%' then s.takeDirective
  else if s.cursor.column == 0 && startsMarker '-' s.cursor.rest then
    s.takeMarker .documentStart
  else if s.cursor.column == 0 && startsMarker '.' s.cursor.rest then
    s.takeMarker .documentEnd
  else match s.cursor.rest.head? with
    | some '[' => s.openFlow .flowSequenceStart
    | some '\x7b' => s.openFlow .flowMappingStart
    | some ']' => s.closeFlow .flowSequenceEnd
    | some '\x7d' => s.closeFlow .flowMappingEnd
    | some ',' => s.takeComma
    | some '*' => s.takeWord fun s =>
      s.cursor.next.readAnchor.map fun r => (.alias r.1, r.2)
    | some '&' => s.takeWord fun s =>
      s.cursor.next.readAnchor.map fun r => (.anchor r.1, r.2)
    | some '!' => s.takeWord fun s => s.cursor.readTag s.inFlow
    | some '\'' => s.takeWord fun s => s.cursor.readQuoted false
    | some '"' => s.takeWord fun s => s.cursor.readQuoted true
    | some c =>
      if c == '-' && endsWord after then s.takeDash
      else if c == '?' && (s.inFlow || endsWord after) then s.takeQuestion
      else if c == ':' && (s.inFlow || endsWord after) then s.takeColon
      else if c == '|' && !s.inFlow then s.takeBlock false
      else if c == '>' && !s.inFlow then s.takeBlock true
      else if startsPlain s.inFlow s.cursor.rest then s.takePlain
      else .error .unexpectedCharacter
    | none => .error .unexpectedCharacter

/-- The tokens at the end of the text: all block collections are closed. -/
def finish (s : Scanner) : Except Error (Array Token) := do
  let s ← (s.closeBlocks none).dropKey
  .ok s.tokens

/-- Scans a text to its end, in at most as many steps as `fuel`. -/
def run (s : Scanner) : Nat → Except Error (Array Token)
  | 0 => s.finish
  | fuel + 1 => do
    let s ← (s.skipSpace s.cursor.steps).dropStaleKeys
    let s := s.closeBlocks (some s.cursor.column)
    if s.cursor.atEnd then s.finish
    else (← s.takeToken).run fuel

end Scanner

def Token.scan (cs : List Char) : Except Error (List Token) :=
  if cs.all isAllowed then
    let s := Scanner.start cs
    (s.run s.cursor.steps).map Array.toList
  else .error .forbiddenCharacter

end ContainerArgs.Yaml
