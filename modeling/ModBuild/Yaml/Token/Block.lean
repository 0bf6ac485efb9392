import ModBuild.Yaml.Cursor
import ModBuild.Yaml.Fault

/-!
# Block scalars

A block scalar is a header and the lines below it that are indented far enough.
The header says whether lines are folded, how the line breaks at the end are
treated and, optionally, how far the lines are indented.  Without that, the
first line that is not empty says it.

Folding turns a single line break between two lines into a space, unless one of
the two starts with a blank.
-/

namespace ModBuild.Yaml.Block

/-- How the line breaks at the end of a block scalar are treated. -/
inductive Chomping where
  | clip
  | strip
  | keep
deriving DecidableEq, Repr

/-- What a header says beside the style. -/
structure Header where
  /-- The treatment of the line breaks at the end. -/
  chomping : Chomping
  /-- The indentation of the lines, if it is given. -/
  increment : Option Nat

/-- The treatment that an indicator asks for. -/
def chomping? : Char → Option Chomping
  | '+' => some .keep
  | '-' => some .strip
  | _ => none

/-- The treatment that comes next, or the default. -/
def readChomping (c : Cursor) : Chomping × Cursor :=
  match c.peek?.bind chomping? with
  | some k => (k, c.next)
  | none => (.clip, c)

/-- The indentation that comes next, which may not be zero. -/
def readIncrement (c : Cursor) : Except Fault (Option Nat × Cursor) :=
  match c.peek? with
  | none => .ok (none, c)
  | some d =>
    if d == '0' then .error .notYaml
    else if d.isDigit then .ok (some (d.toNat - 48), c.next)
    else .ok (none, c)

/-- Read the header behind the style: its two parts in either order, and nothing
but a comment behind them. -/
def readHeader (c : Cursor) : Except Fault (Header × Cursor) := do
  let (first, c) := readChomping c
  let (increment, c) ← readIncrement c
  let (chomping, c) := if first = .clip ∧ increment.isSome then readChomping c else (first, c)
  if c.seesOrEnds isSpaceOrBreak then
    match c.skipEmptyLine? with
    | some c => return (⟨chomping, increment⟩, c)
    | none => .error .notYaml
  else
    .error .notYaml

/-- The empty lines that follow, and the largest indentation among them and the
line behind them. -/
def leading (c : Cursor) (widest : Nat) : (fuel : Nat) → List Char × Nat × Cursor
  | 0 => ([], widest, c)
  | fuel + 1 =>
    if c.sees (· == ' ') then
      let c := c.next
      leading c (max widest c.column) fuel
    else
      match c.lineBreak? with
      | none => ([], widest, c)
      | some (b, c) =>
        let (bs, widest, c) := leading c widest fuel
        (b :: bs, widest, c)

/-- The empty lines that follow, none indented further than `indent`, and the
indentation of the line behind them. -/
def emptyLines (indent : Nat) (c : Cursor) : (fuel : Nat) → List Char × Cursor
  | 0 => ([], c)
  | fuel + 1 =>
    let c := c.skipIndent indent
    match c.lineBreak? with
    | none => ([], c)
    | some (b, c) =>
      let (bs, c) := emptyLines indent c fuel
      (b :: bs, c)

/-- The text at the end of a block scalar, of the break behind the last line
and the empty lines after it. -/
def ending (chomping : Chomping) (lineBreak empty : List Char) : List Char :=
  match chomping with
  | .strip => []
  | .clip => lineBreak
  | .keep => lineBreak ++ empty

/-- Read lines.  The empty lines before the first are given. -/
def lines (folded : Bool) (chomping : Chomping) (indent : Nat) (before : List Char)
    (c : Cursor) : (fuel : Nat) → List Char × Cursor
  | 0 => ([], c)
  | fuel + 1 =>
    if c.column = indent ∧ c.rest ≠ [] then
      let text := c.run (!isBreak ·)
      let afterText := c.skip text.length
      let (lineBreak, afterBreak) :=
        match afterText.lineBreak? with
        | some (b, c) => ([b], c)
        | none => ([], afterText)
      let (empty, next) := emptyLines indent afterBreak (afterBreak.rest.length + 1)
      if next.column = indent ∧ next.rest ≠ [] then
        let folds := folded && lineBreak == ['\n'] && !c.sees isWhite && !next.sees isWhite
        let joint := if folds then (if empty = [] then [' '] else []) else lineBreak
        let (more, c) := lines folded chomping indent empty next fuel
        (before ++ text ++ joint ++ more, c)
      else
        (before ++ text ++ ending chomping lineBreak empty, next)
    else
      (ending chomping [] before, c)

/-- Read a block scalar from its style on, inside a collection that is indented
by `indent` columns less one. -/
def scan (folded : Bool) (indent : Nat) (c : Cursor) : Except Fault (List Char × Cursor) := do
  let (header, c) ← readHeader c.next
  let least := max indent 1
  let fuel := c.rest.length + 1
  match header.increment with
  | none =>
    let (before, widest, c) := leading c 0 fuel
    return lines folded header.chomping (max least widest) before c fuel
  | some n =>
    let (before, c) := emptyLines (least + n - 1) c fuel
    return lines folded header.chomping (least + n - 1) before c fuel

end ModBuild.Yaml.Block
