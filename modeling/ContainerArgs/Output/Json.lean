/-!
# JSON texts

Texts between double quotes: quotes and backslashes are escaped, and so are the
characters below the space.
-/

namespace ContainerArgs.Output

/-- The code of a character below the space as four hexadecimal digits. -/
def controlCode (n : Nat) : List Char :=
  let ds := Nat.toDigits 16 n
  List.replicate (4 - ds.length) '0' ++ ds

def jsonEscape? (c : Char) : Option Char :=
  [('"', '"'), ('\\', '\\'), ('\x08', 'b'), ('\x0c', 'f'),
    ('\n', 'n'), ('\r', 'r'), ('\t', 't')].lookup c

/-- A character between quotes. -/
def jsonChar (c : Char) : List Char :=
  match jsonEscape? c with
  | some letter => ['\\', letter]
  | none => if c.toNat < 0x20 then '\\' :: 'u' :: controlCode c.toNat else [c]

def jsonText (s : String) : List Char :=
  ['"'] ++ s.toList.flatMap jsonChar ++ ['"']

end ContainerArgs.Output
