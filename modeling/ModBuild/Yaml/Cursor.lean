import ModBuild.Yaml.Character

/-!
# Reading positions

A cursor stands in a text.  It knows what is left of the text, how far it has
come, and the line and column where it stands.  Columns count characters, and a
byte order mark does not count.
-/

namespace ModBuild.Yaml

/-- A position in a text. -/
structure Cursor where
  rest : List Char
  /-- The number of characters read. -/
  index : Nat
  /-- The number of lines read. -/
  line : Nat
  /-- The number of characters read on this line. -/
  column : Nat
deriving DecidableEq, Repr

namespace Cursor

/-- The start of a text. -/
def start (text : List Char) : Cursor :=
  ⟨text, 0, 0, 0⟩

/-- The next character. -/
def peek? (c : Cursor) : Option Char :=
  c.rest.head?

/-- Whether the next character is in a class. -/
def sees (c : Cursor) (p : Char → Bool) : Bool :=
  match c.rest with
  | [] => false
  | d :: _ => p d

/-- Whether the text ends here or the next character is in a class. -/
def seesOrEnds (c : Cursor) (p : Char → Bool) : Bool :=
  startsOrEnds p c.rest

/-- Move past one character. -/
def next (c : Cursor) : Cursor :=
  match c.rest with
  | [] => c
  | d :: ds =>
    let ends := isBreak d && !(d == '\r' && ds.head? == some '\n')
    { rest := ds
      index := c.index + 1
      line := if ends then c.line + 1 else c.line
      column := if ends then 0 else if d == '\uFEFF' then c.column else c.column + 1 }

/-- Move past some characters. -/
def skip (c : Cursor) : Nat → Cursor
  | 0 => c
  | n + 1 => c.next.skip n

/-- The longest run of characters of a class that follows. -/
def run (c : Cursor) (p : Char → Bool) : List Char :=
  c.rest.takeWhile p

/-- Move past a run of characters of a class. -/
def skipRun (c : Cursor) (p : Char → Bool) : Cursor :=
  c.skip (c.run p).length

/-- Move past the spaces that follow, but not past a column. -/
def skipIndent (c : Cursor) (column : Nat) : Cursor :=
  c.skip (min (c.run (· == ' ')).length (column - c.column))

/-- Read a line break, which counts as a line feed unless it is the separator of
lines or paragraphs. -/
def lineBreak? (c : Cursor) : Option (Char × Cursor) :=
  match c.rest with
  | '\r' :: '\n' :: _ => some ('\n', c.skip 2)
  | d :: _ =>
    if d == '\u2028' || d == '\u2029' then some (d, c.next)
    else if isBreak d then some ('\n', c.next)
    else none
  | [] => none

/-- Move past the rest of a line, if it holds nothing but spaces and a comment. -/
def skipEmptyLine? (c : Cursor) : Option Cursor :=
  let c := c.skipRun (· == ' ')
  let c := if c.sees (· == '#') then c.skipRun (!isBreak ·) else c
  if c.seesOrEnds isBreak then
    some ((c.lineBreak?.map (·.2)).getD c)
  else
    none

end Cursor

end ModBuild.Yaml
