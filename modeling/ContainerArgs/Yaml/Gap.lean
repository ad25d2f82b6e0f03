import ContainerArgs.Yaml.Cursor

/-!
# Gaps between words

Scalars may go over several lines.  Between two words stands a gap: blanks, or
line breaks with blanks around them.  A single break folds to a space, and of
several the first is dropped.  The breaks LS and PS are kept.
-/

namespace ContainerArgs.Yaml

/-- The character that a break stands for. -/
def foldedBreak (c : Char) : Char :=
  if c == '\u2028' || c == '\u2029' then c else '\n'

/-- A gap: the blanks before the first break, and each break with the blanks
after it. -/
structure Gap where
  blanks : List Char
  lines : List (Char × List Char)
deriving Repr

namespace Gap

def ofText : List Char → Gap
  | [] => ⟨[], []⟩
  | '\r' :: '\n' :: cs =>
    let gap := ofText cs
    ⟨[], ('\n', gap.blanks) :: gap.lines⟩
  | c :: cs =>
    let gap := ofText cs
    if isBreak c then ⟨[], (foldedBreak c, gap.blanks) :: gap.lines⟩
    else ⟨c :: gap.blanks, gap.lines⟩

def isBroken (g : Gap) : Bool :=
  !g.lines.isEmpty

def folded (g : Gap) : List Char :=
  match g.lines with
  | [] => g.blanks
  | [('\n', _)] => [' ']
  | ('\n', _) :: more => more.map (·.1)
  | all => all.map (·.1)

/-- The text for which a gap stands after an escaped line break: only its
further breaks count. -/
def foldedAfterEscape (g : Gap) : List Char :=
  g.lines.map (·.1)

/-- Whether a tab stands where a line after the first has to be indented by a
number of columns. -/
def hasTabBefore (g : Gap) (indent : Nat) : Bool :=
  g.lines.any fun l => (l.2.take indent).contains '\t'

end Gap

/-- The gap that begins here, and the place after it. -/
def Cursor.gap (cur : Cursor) : Gap × Cursor :=
  (Gap.ofText (cur.run isGap), cur.skipWhile isGap)

end ContainerArgs.Yaml
