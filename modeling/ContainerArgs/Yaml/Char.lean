/-!
# Character classes of the notation

Line breaks are LF, CR, NEL, LS and PS, where CR LF is one break.  Blanks are
the space and the tab.
-/

namespace ContainerArgs.Yaml

def isBreak (c : Char) : Bool :=
  c == '\n' || c == '\r' || c == '\u0085' || c == '\u2028' || c == '\u2029'

/-- Whether a character is a space or a tab. -/
def isSpace (c : Char) : Bool :=
  c == ' ' || c == '\t'

/-- Whether a character is a space, a tab or a break. -/
def isGap (c : Char) : Bool :=
  isSpace c || isBreak c

/-- Whether a text is at its end or at a blank or break. -/
def endsWord (cs : List Char) : Bool :=
  cs.head?.all isGap

/-- Whether a text is at its end or at a break. -/
def endsLine (cs : List Char) : Bool :=
  cs.head?.all isBreak

/-- Whether a character may stand in the name of an anchor, a directive or a tag
handle. -/
def isNameChar (c : Char) : Bool :=
  c.isAlphanum || c == '-' || c == '_'

/-- Whether a character separates the parts of flow collections. -/
def isFlowIndicator (c : Char) : Bool :=
  c == ',' || c == '[' || c == ']' || c == '\x7b' || c == '\x7d'

/-- Whether a character has a meaning of its own at the start of a token. -/
def isIndicator (c : Char) : Bool :=
  isFlowIndicator c || c == '-' || c == '?' || c == ':' || c == '#' ||
    c == '&' || c == '*' || c == '!' || c == '|' || c == '>' || c == '\'' ||
    c == '"' || c == '%' || c == '@' || c == '\x60'

/-- Whether a text may contain a character. -/
def isAllowed (c : Char) : Bool :=
  let n := c.toNat
  n == 0x09 || n == 0x0A || n == 0x0D || (0x20 ≤ n && n ≤ 0x7E) || n == 0x85 ||
    (0xA0 ≤ n && n ≤ 0xD7FF) || (0xE000 ≤ n && n ≤ 0xFFFD) || 0x10000 ≤ n

/-- Whether a text begins with the marker of a document's start or end. -/
def startsMarker (c : Char) : List Char → Bool
  | a :: b :: d :: cs => a == c && b == c && d == c && endsWord cs
  | _ => false

/-- Whether a text begins with the marker of a document's start or of its
end. -/
def startsAnyMarker (cs : List Char) : Bool :=
  startsMarker '-' cs || startsMarker '.' cs

end ContainerArgs.Yaml
