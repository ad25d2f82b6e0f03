import ContainerArgs.Yaml.Gap
import ContainerArgs.Yaml.Token.Tag

/-!
# Scalars

Scalars are plain, in single or double quotes, or blocks of lines.  Lines of
plain and quoted scalars are folded, those of block scalars are folded or kept
as their header says.
-/

namespace ContainerArgs.Yaml.Cursor

/-! ## Plain scalars -/

/-- The length of the word that begins a text: it ends at a blank, a break, a
colon before one, and in a flow collection at an indicator of it.  There a colon
right before an indicator is a fault. -/
def wordLength (inFlow : Bool) : List Char → Except Error Nat
  | [] => .ok 0
  | c :: cs =>
    if isGap c then .ok 0
    else if inFlow && c == ':' &&
        cs.head?.any (fun d => isFlowIndicator d || d == '?') then
      .error .unexpectedCharacter
    else if c == ':' && endsWord cs then .ok 0
    else if inFlow && isFlowIndicator c then .ok 0
    else (wordLength inFlow cs).map (· + 1)

/-- A plain scalar as far as it was read: its text, whether it ended after a
break, and the place after it. -/
structure PlainScalar where
  text : List Char
  broken : Bool
  cursor : Cursor

/-- Reads a plain scalar from a place between words on, with the gap before it
and as many words as `fuel` allows.  In block collections it ends at a line that
is not indented by `indent`. -/
def readWords (inFlow : Bool) (indent : Nat) :
    Nat → List Char → Gap → Cursor → Except Error PlainScalar
  | 0, text, gap, cur => .ok ⟨text, gap.isBroken, cur⟩
  | fuel + 1, text, gap, cur =>
    if cur.atMarker || cur.at? '#' then .ok ⟨text, gap.isBroken, cur⟩
    else do
      let n ← wordLength inFlow cur.rest
      if n = 0 then .ok ⟨text, gap.isBroken, cur⟩
      else
        let text := text ++ gap.folded ++ cur.rest.take n
        let (gap, rest) := (cur.skip n).gap
        if gap.blanks = [] ∧ gap.lines = [] then .ok ⟨text, false, rest⟩
        else if gap.hasTabBefore indent then .error .badIndentation
        else if !inFlow && rest.column < indent then
          .ok ⟨text, gap.isBroken, rest⟩
        else readWords inFlow indent fuel text gap rest

def readPlain (inFlow : Bool) (indent : Nat) (cur : Cursor) :
    Except Error PlainScalar :=
  readWords inFlow indent cur.steps [] ⟨[], []⟩ cur

/-! ## Quoted scalars -/

def shortEscape? (c : Char) : Option Char :=
  [('0', '\x00'), ('a', '\x07'), ('b', '\x08'), ('t', '\t'), ('\t', '\t'),
    ('n', '\n'), ('v', '\x0b'), ('f', '\x0c'), ('r', '\r'), ('e', '\x1b'),
    (' ', ' '), ('"', '"'), ('/', '/'), ('\\', '\\'), ('N', '\u0085'),
    ('_', '\u00a0'), ('L', '\u2028'), ('P', '\u2029')].lookup c

/-- The number of hexadecimal digits after a letter that begins an escape. -/
def escapeDigits? (c : Char) : Option Nat :=
  [('x', 2), ('u', 4), ('U', 8)].lookup c

/-- The character with a code point, if it has one. -/
def charOf? (n : Nat) : Option Char :=
  if n.isValidChar then some (Char.ofNat n) else none

/-- The character of an escape, after its backslash, and the number of
characters that the escape takes. -/
def readEscape : List Char → Except Error (Char × Nat)
  | [] => .error .badEscape
  | c :: cs =>
    match shortEscape? c, escapeDigits? c with
    | some d, _ => .ok (d, 2)
    | none, some digits =>
      if cs.length < digits then .error .badEscape
      else match (Number.readBase? 16 (cs.take digits)).bind charOf? with
        | some d => .ok (d, digits + 2)
        | none => .error .badEscape
    | none, none => .error .badEscape

/-- How a run of characters in quotes ends: at the closing quote, at a gap, or
at an escaped line break. -/
inductive RunEnd where
  | quote
  | gap
  | escapedBreak
deriving DecidableEq

/-- A run of characters in quotes: the text, how it ended, and the place after
it. -/
structure QuotedRun where
  text : List Char
  stop : RunEnd
  cursor : Cursor

def QuotedRun.cons (c : Char) (r : QuotedRun) : QuotedRun :=
  { r with text := c :: r.text }

/-- Reads the characters in quotes up to the closing quote or a gap. -/
def readQuotedRun (double : Bool) : Nat → Cursor → Except Error QuotedRun
  | 0, cur => .ok ⟨[], .gap, cur⟩
  | fuel + 1, cur =>
    match cur.rest with
    | [] => .ok ⟨[], .gap, cur⟩
    | c :: cs =>
      if isGap c then .ok ⟨[], .gap, cur⟩
      else if !double && c == '\'' && cs.head? == some '\'' then
        (readQuotedRun double fuel (cur.skip 2)).map (.cons '\'')
      else if c == (if double then '"' else '\'') then
        .ok ⟨[], .quote, cur.next⟩
      else if double && c == '\\' then
        if cs.head?.any isBreak then .ok ⟨[], .escapedBreak, cur.next.skipBreak⟩
        else do
          let (d, n) ← readEscape cs
          (readQuotedRun double fuel (cur.skip n)).map (.cons d)
      else (readQuotedRun double fuel cur.next).map (.cons c)

/-- Reads the lines of a quoted scalar, after its opening quote. -/
def readQuotedLines (double : Bool) :
    Nat → List Char → Cursor → Except Error (String × Cursor)
  | 0, _, _ => .error .unclosedQuote
  | fuel + 1, text, cur =>
    if cur.atMarker then .error .unexpectedToken
    else if cur.atEnd then .error .unclosedQuote
    else do
      let run ← readQuotedRun double cur.steps cur
      let text := text ++ run.text
      match run.stop with
      | .quote => .ok (String.ofList text, run.cursor)
      | .gap =>
        let (gap, rest) := run.cursor.gap
        readQuotedLines double fuel (text ++ gap.folded) rest
      | .escapedBreak =>
        if run.cursor.at? '"' then .ok (String.ofList text, run.cursor.next)
        else
          let (gap, rest) := run.cursor.gap
          readQuotedLines double fuel (text ++ gap.foldedAfterEscape) rest

def readQuoted (double : Bool) (cur : Cursor) :
    Except Error (Token × Cursor) := do
  let (text, rest) ← readQuotedLines double cur.steps [] cur.next
  .ok (.scalar false text, rest)

/-! ## Block scalars -/

/-- What becomes of the line breaks at the end of a block scalar. -/
inductive Chomping where
  | strip
  | clip
  | keep
deriving DecidableEq

def readChomping (cur : Cursor) : Option Chomping × Cursor :=
  if cur.at? '+' then (some .keep, cur.next)
  else if cur.at? '-' then (some .strip, cur.next)
  else (none, cur)

/-- Reads the indentation indicator of a block scalar, which is not zero. -/
def readIncrement (cur : Cursor) : Except Error ((Option Nat) × Cursor) :=
  match cur.rest with
  | c :: _ =>
    if c == '0' then .error .badBlockHeader
    else if c.isDigit then .ok (some (c.toNat - '0'.toNat), cur.next)
    else .ok (none, cur)
  | [] => .ok (none, cur)

/-- Reads the header of a block scalar after its first character: the indicators
in either order, and the rest of the line, which may be a comment. -/
def readBlockHeader (cur : Cursor) :
    Except Error ((Chomping × Option Nat) × Cursor) := do
  let (before, cur) := cur.readChomping
  let (increment, cur) ← cur.readIncrement
  let (after, cur) :=
    if before.isNone && increment.isSome then cur.readChomping else (none, cur)
  let cur := (cur.skipWhile isSpace).skipComment
  if endsLine cur.rest then
    .ok (((before <|> after).getD .clip, increment), cur.skipBreak)
  else .error .badBlockHeader

/-- The empty lines before a line of a block scalar: their breaks, the greatest
indentation met, and the place after the indentation of that line.  An unknown
indentation is given as none. -/
def readEmptyLines (indent : Option Nat) : Nat → List Char → Nat → Cursor →
    Except Error (List Char × Nat × Cursor)
  | 0, breaks, most, cur => .ok (breaks, most, cur)
  | fuel + 1, breaks, most, cur =>
    let blanks := (cur.run (· == ' ')).length
    let here := cur.skip (match indent with
      | some n => min blanks (n - cur.column)
      | none => blanks)
    let most := max most here.column
    let short := indent.all (here.column < ·)
    if short && here.at? '\t' then .error .badIndentation
    else match here.rest with
      | c :: _ =>
        if isBreak c then
          readEmptyLines indent fuel (breaks ++ [foldedBreak c]) most
            here.skipBreak
        else .ok (breaks, most, here)
      | [] => .ok (breaks, most, here)

/-- A block scalar as far as it was read: the text, the break that ended its
last line, and the breaks of the empty lines after it. -/
structure BlockText where
  text : List Char
  lastBreak : List Char
  emptyBreaks : List Char

/-- The text with the next line, which begins with a blank or not. -/
def BlockText.addLine (folded afterBlank : Bool) (line lineBreak : List Char)
    (b : BlockText) : BlockText :=
  let blank := line.head?.any isSpace
  let joined :=
    if folded && b.lastBreak == ['\n'] && !afterBlank && !blank then
      if b.emptyBreaks = [] then [' '] else []
    else b.lastBreak
  ⟨b.text ++ joined ++ b.emptyBreaks ++ line, lineBreak, []⟩

/-- Reads the lines of a block scalar with a known indentation. -/
def readBlockLines (folded : Bool) (indent : Nat) :
    Nat → Bool → BlockText → Cursor → Except Error (BlockText × Cursor)
  | 0, _, text, cur => .ok (text, cur)
  | fuel + 1, afterBlank, text, cur =>
    if cur.column ≠ indent ∨ cur.atEnd then .ok (text, cur)
    else do
      let line := cur.run fun c => !isBreak c
      let stop := cur.skip line.length
      let lineBreak := (stop.rest.head?.map foldedBreak).toList
      let text := text.addLine folded afterBlank line lineBreak
      let (breaks, _, next) ←
        readEmptyLines (some indent) stop.steps [] 0 stop.skipBreak
      readBlockLines folded indent fuel (line.head?.any isSpace)
        { text with emptyBreaks := breaks } next

/-- The text of a block scalar with the breaks at its end chomped. -/
def BlockText.chomp (chomping : Chomping) (b : BlockText) : List Char :=
  match chomping with
  | .strip => b.text
  | .clip => b.text ++ b.lastBreak
  | .keep => b.text ++ b.lastBreak ++ b.emptyBreaks

/-- Reads a block scalar, at its first character, where the collection around it
is indented by `outer` columns if there is one. -/
def readBlock (folded : Bool) (outer : Option Nat) (cur : Cursor) :
    Except Error (Token × Cursor) := do
  let ((chomping, increment), cur) ← cur.next.readBlockHeader
  let given := increment.map (outer.getD 0 + ·)
  let (breaks, most, cur) ← readEmptyLines given cur.steps [] 0 cur
  let least := match outer with
    | some n => n + 1
    | none => 1
  let indent := given.getD (max most least)
  let (text, cur) ←
    readBlockLines folded indent cur.steps false ⟨[], [], breaks⟩ cur
  .ok (.scalar false (String.ofList (text.chomp chomping)), cur)

end ContainerArgs.Yaml.Cursor
