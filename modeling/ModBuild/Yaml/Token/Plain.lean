import ModBuild.Yaml.Cursor

/-!
# Plain scalars

A plain scalar is a run of words.  Inside a word everything stands for itself.
A word ends at a blank, at a colon with a blank after it and, inside brackets,
at a bracket, comma or question mark.  Between two words there are spaces, which
are kept, or line breaks, which are folded: a single one becomes a space, and of
several the first is dropped.  A comment, a smaller indentation or the mark of a
document ends the scalar.
-/

namespace ModBuild.Yaml.Plain

/-- Whether a plain word ends before a character that is followed by others. -/
def endsWord (flow : Bool) (c : Char) (after : List Char) : Bool :=
  isBlank c ||
    (c == ':' && (startsOrEnds isBlank after || (flow && startsOrEnds isFlowMark after))) ||
    (flow && (isFlowMark c || c == '?'))

/-- The plain word at the start of a text. -/
def word (flow : Bool) : List Char → List Char
  | [] => []
  | c :: cs => if endsWord flow c cs then [] else c :: word flow cs

/-- The line breaks that follow, with the spaces between them skipped, or
nothing if the mark of a document comes after one of them. -/
def breaks? (c : Cursor) : (fuel : Nat) → Option (List Char) × Cursor
  | 0 => (some [], c)
  | fuel + 1 =>
    if c.sees (· == ' ') then
      breaks? c.next fuel
    else
      match c.lineBreak? with
      | none => (some [], c)
      | some (b, c) =>
        if atAnyMarker c.rest then
          (none, c)
        else
          let (bs, c) := breaks? c fuel
          (bs.map (b :: ·), c)

/-- What stands between two words, and whether it holds a line break. -/
structure Gap where
  /-- The text that the gap stands for, or nothing if no word can follow. -/
  text : Option (List Char)
  /-- The end of the gap. -/
  cursor : Cursor
  /-- Whether it holds a line break. -/
  broken : Bool

/-- The gap that follows. -/
def gap (c : Cursor) : Gap :=
  let spaces := c.run (· == ' ')
  let c := c.skip spaces.length
  match c.lineBreak? with
  | none => ⟨if spaces = [] then none else some spaces, c, false⟩
  | some (b, c) =>
    if atAnyMarker c.rest then
      ⟨none, c, true⟩
    else
      let (bs, c) := breaks? c c.rest.length
      ⟨bs.map fun bs => if b ≠ '\n' then b :: bs else if bs = [] then [' '] else bs, c, true⟩

/-- A plain scalar that was read. -/
structure Result where
  text : List Char
  /-- The end of it and of the gap behind it. -/
  cursor : Cursor
  /-- Whether a line break comes after its last word. -/
  broken : Bool

/-- Read words from a gap on.  The scalar must be indented by at least `indent`
columns outside brackets. -/
def words (flow : Bool) (indent : Nat) (before : List Char) (broken : Bool) (c : Cursor) :
    (fuel : Nat) → Result
  | 0 => ⟨[], c, broken⟩
  | fuel + 1 =>
    let w := if c.sees (· == '#') then [] else word flow c.rest
    if w = [] then
      ⟨[], c, broken⟩
    else
      let g := gap (c.skip w.length)
      match g.text with
      | none => ⟨before ++ w, g.cursor, g.broken⟩
      | some gapText =>
        if g.cursor.sees (· == '#') || (!flow && g.cursor.column < indent) then
          ⟨before ++ w, g.cursor, g.broken⟩
        else
          let r := words flow indent gapText g.broken g.cursor fuel
          { r with text := before ++ w ++ r.text }

/-- Read a plain scalar. -/
def scan (flow : Bool) (indent : Nat) (c : Cursor) : Result :=
  words flow indent [] false c (c.rest.length + 1)

end ModBuild.Yaml.Plain
