import ContainerArgs.Yaml.Char

/-!
# Positions in a text

A cursor is the rest of a text with its position: how many bytes were read, and
the line and column, which counts characters. It also knows the number of
characters of the whole text, which bounds the steps of every loop over the
rest.
-/

namespace ContainerArgs.Yaml

/-- A place in a text. -/
structure Cursor where
  rest : List Char
  index : Nat
  line : Nat
  column : Nat
  size : Nat
deriving Repr

namespace Cursor

def start (cs : List Char) : Cursor :=
  ⟨cs, 0, 0, 0, cs.length⟩

/-- Whether the line ends with a character, given what follows it.  A carriage
return before a line feed does not end the line by itself. -/
def breaksBefore (c : Char) (after : List Char) : Bool :=
  isBreak c && !(c == '\r' && after.head? == some '\n')

/-- The place after the next character. -/
def next (cur : Cursor) : Cursor :=
  match cur.rest with
  | [] => cur
  | c :: cs =>
    if breaksBefore c cs then
      ⟨cs, cur.index + c.utf8Size, cur.line + 1, 0, cur.size⟩
    else ⟨cs, cur.index + c.utf8Size, cur.line, cur.column + 1, cur.size⟩

/-- A bound of the steps of a loop that passes over a character in each but the
last. -/
def steps (cur : Cursor) : Nat :=
  cur.size + 1

/-- The place after a number of characters. -/
def skip (cur : Cursor) : Nat → Cursor
  | 0 => cur
  | n + 1 => cur.next.skip n

/-- The characters from here on that satisfy a predicate. -/
def run (p : Char → Bool) (cur : Cursor) : List Char :=
  cur.rest.takeWhile p

/-- The place after the characters that satisfy a predicate. -/
def skipWhile (p : Char → Bool) (cur : Cursor) : Cursor :=
  cur.skip (cur.run p).length

/-- The place after a line break, if there is one here. -/
def skipBreak (cur : Cursor) : Cursor :=
  match cur.rest with
  | '\r' :: '\n' :: _ => cur.skip 2
  | c :: _ => if isBreak c then cur.next else cur
  | [] => cur

/-- Whether a given character comes next. -/
def at? (cur : Cursor) (c : Char) : Bool :=
  cur.rest.head? == some c

def atEnd (cur : Cursor) : Bool :=
  cur.rest.isEmpty

/-- Whether a marker of a document's start or end stands at the start of a line
here. -/
def atMarker (cur : Cursor) : Bool :=
  cur.column == 0 && startsAnyMarker cur.rest

/-- The place after the comment that may begin here. -/
def skipComment (cur : Cursor) : Cursor :=
  if cur.at? '#' then cur.skipWhile fun c => !isBreak c else cur

end Cursor

end ContainerArgs.Yaml
