import ContainerArgs.Yaml.Char
import ContainerArgs.Yaml.Plain

/-!
# Writing texts

How a text is written so that it is read back as the same text.  One with a line
feed is a literal block, one that would be read as something else or not at all
is quoted, and all others are plain.
-/

namespace ContainerArgs.Yaml

/-- The styles in which a text is written. -/
inductive Style where
  | plain
  | singleQuoted
  | doubleQuoted
  | literal
deriving DecidableEq, Repr

namespace Style

/-- Whether a character is written as it is. -/
def isPrintable (c : Char) : Bool :=
  let n := c.toNat
  n == 0x0A || (0x20 ≤ n && n ≤ 0x7E) || (0xA0 ≤ n && n ≤ 0xD7FF) ||
    (0xE000 ≤ n && n ≤ 0xFFFD && n != 0xFEFF) || 0x10000 ≤ n

/-- Whether a text has two neighbouring characters of two classes. -/
def hasPair (p q : Char → Bool) : List Char → Bool
  | a :: b :: cs => (p a && q b) || hasPair p q (b :: cs)
  | _ => false

/-- Whether a colon that ends a word or a number sign that begins one stands in
a text, after a blank or not. -/
def hasInnerIndicator : Bool → List Char → Bool
  | _, [] => false
  | afterBlank, c :: cs =>
    (c == ':' && endsWord cs) || (c == '#' && afterBlank) ||
      hasInnerIndicator (isGap c) cs

/-- Whether a text begins with what would begin another token. -/
def hasLeadingIndicator : List Char → Bool
  | [] => false
  | c :: cs =>
    if c == '-' || c == '?' || c == ':' then endsWord cs else isIndicator c

/-- Whether a text begins like the marker of a document. -/
def looksLikeMarker (cs : List Char) : Bool :=
  ['-', '-', '-'].isPrefixOf cs || ['.', '.', '.'].isPrefixOf cs

/-- Whether a text can be written only with escapes. -/
def needsEscapes (cs : List Char) : Bool :=
  !cs.all isPrintable || hasPair (· == ' ') isBreak cs

def allowsPlain (cs : List Char) : Bool :=
  !needsEscapes cs && !cs.any isBreak && cs.head? != some ' ' &&
    cs.getLast? != some ' ' && !looksLikeMarker cs && !hasLeadingIndicator cs &&
    !hasInnerIndicator false (cs.drop 1)

/-- Whether a text can stand in single quotes. -/
def allowsSingleQuoted (cs : List Char) : Bool :=
  !needsEscapes cs && !hasPair isBreak (· == ' ') cs

/-- Whether a text can be a literal block. -/
def allowsLiteral (cs : List Char) : Bool :=
  !needsEscapes cs && cs.getLast? != some ' '

/-- Whether a plain scalar is read as its own text, and does not look like a
number. -/
def readsAsText (s : String) : Bool :=
  match Plain.resolve s with
  | .ok (.text _) => !Plain.isPaddedNumber s.toList
  | _ => false

/-- The style of a text. -/
def of (s : String) : Style :=
  let cs := s.toList
  if cs.contains '\n' then
    if allowsLiteral cs then .literal else .doubleQuoted
  else if readsAsText s && allowsPlain cs then .plain
  else if allowsSingleQuoted cs then .singleQuoted
  else .doubleQuoted

end Style

namespace Printer

/-- A number of columns of space. -/
def indentation (indent : Nat) : List Char :=
  List.replicate indent ' '

/-- The lines of a literal block, each after its indentation, from the start of
a line on or not. -/
def literalLines (indent : Nat) : Bool → List Char → List Char
  | _, [] => []
  | atStart, c :: cs =>
    if isBreak c then c :: literalLines indent true cs
    else
      (if atStart then indentation indent else []) ++
        c :: literalLines indent false cs

/-- The indicators of a literal block: how it is indented, if it begins with
space, and what becomes of the breaks at its end. -/
def literalHints (cs : List Char) : List Char :=
  let indented :=
    if cs.head?.any fun c => c == ' ' || isBreak c then ['2'] else []
  let chomped := match cs.reverse with
    | a :: rest =>
      if !isBreak a then ['-'] else if rest.head?.all isBreak then ['+'] else []
    | [] => ['-']
  indented ++ chomped

/-- The characters between single quotes, where a line after a break is
indented. -/
def singleQuotedBody (indent : Nat) : Bool → List Char → List Char
  | afterBreak, [] => if afterBreak then indentation indent else []
  | afterBreak, c :: cs =>
    if isBreak c then c :: singleQuotedBody indent true cs
    else if c == ' ' then c :: singleQuotedBody indent afterBreak cs
    else
      (if afterBreak then indentation indent else []) ++
        (if c == '\'' then ['\'', '\''] else [c]) ++
        singleQuotedBody indent false cs

/-- The upper-case hexadecimal digits of a number, at least as many as
`width`. -/
def hexCode (width n : Nat) : List Char :=
  let ds := (Nat.toDigits 16 n).map Char.toUpper
  List.replicate (width - ds.length) '0' ++ ds

def escapeLetter? (c : Char) : Option Char :=
  [('\x00', '0'), ('\x07', 'a'), ('\x08', 'b'), ('\t', 't'), ('\n', 'n'),
    ('\x0b', 'v'), ('\x0c', 'f'), ('\r', 'r'), ('\x1b', 'e'), ('"', '"'),
    ('\\', '\\'), ('\u0085', 'N'), ('\u00a0', '_'), ('\u2028', 'L'),
    ('\u2029', 'P')].lookup c

def doubleQuotedChar (c : Char) : List Char :=
  if Style.isPrintable c && !isBreak c && c != '"' && c != '\\' then [c]
  else match escapeLetter? c with
    | some letter => ['\\', letter]
    | none =>
      let n := c.toNat
      if n ≤ 0xFF then '\\' :: 'x' :: hexCode 2 n
      else if n ≤ 0xFFFF then '\\' :: 'u' :: hexCode 4 n
      else '\\' :: 'U' :: hexCode 8 n

/-- A text as the value of an entry or an element, to the end of its line.  The
lines after the first are indented. -/
def textLine (indent : Nat) (s : String) : List Char :=
  let cs := s.toList
  match Style.of s with
  | .plain => cs ++ ['\n']
  | .singleQuoted => ['\''] ++ singleQuotedBody indent false cs ++ ['\'', '\n']
  | .doubleQuoted => ['"'] ++ cs.flatMap doubleQuotedChar ++ ['"', '\n']
  | .literal =>
    ['|'] ++ literalHints cs ++ ['\n'] ++ literalLines indent true cs ++
      (if cs.getLast?.any isBreak then [] else ['\n'])

end Printer

end ContainerArgs.Yaml
