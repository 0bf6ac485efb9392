import ModBuild.Yaml.Token.Block
import ModBuild.Yaml.Token.Plain
import ModBuild.Yaml.Token.Properties
import ModBuild.Yaml.Token.Quoted

/-!
# The tokens of a text

The tokens of a text are read from left to right.  Three things are remembered
on the way.

* The columns of the open collections that are shown by indentation.  A smaller
  indentation closes them.
* The depth of brackets and braces.  Inside them indentation means nothing.
* The *candidates*, at most one per depth: places where a key may have started.
  Only the colon behind a key tells that it was one, and then the token for the
  start of the key, and perhaps of a mapping, is put in at that place.  A key
  must end on its line and within 1024 characters.

Outside brackets a new item, key or value may start only at the start of a line
or behind the mark of another one.  The flag `allowKey` says whether it may.

Reading a character by a number that no character has is a fault of its own.
The tokens before the first candidate that was open then are still good.
-/

namespace ModBuild.Yaml

/-- A place where a key may have started. -/
structure Candidate where
  /-- The number of the token that starts there. -/
  number : Nat
  /-- Whether a key is the only thing that can start there. -/
  required : Bool
  /-- The cursor at that place. -/
  start : Cursor

/-- Whether the key must have ended before a cursor. -/
def Candidate.isStale (k : Candidate) (c : Cursor) : Bool :=
  k.start.line != c.line || 1024 < c.index - k.start.index

/-- The state of reading tokens. -/
structure Reader where
  cursor : Cursor
  /-- The depth of brackets and braces. -/
  depth : Nat
  /-- The columns of the open collections, the innermost first. -/
  columns : List Nat
  /-- Whether an item, key or value may start here. -/
  allowKey : Bool
  /-- The candidates, each with its depth. -/
  candidates : List (Nat × Candidate)
  /-- The tokens, the last first. -/
  tokens : List Token
  count : Nat

namespace Reader

/-- The state at the start of a text. -/
def start (text : List Char) : Reader :=
  ⟨.start text, 0, [], true, [], [], 0⟩

/-- Add a token. -/
def push (r : Reader) (t : Token) : Reader :=
  { r with tokens := t :: r.tokens, count := r.count + 1 }

/-- Put a token in before the one with a number. -/
def insert (r : Reader) (number : Nat) (t : Token) : Reader :=
  let later := r.count - number
  { r with
    tokens := r.tokens.take later ++ t :: r.tokens.drop later
    count := r.count + 1 }

/-- Move past some characters. -/
def skip (r : Reader) (n : Nat) : Reader :=
  { r with cursor := r.cursor.skip n }

/-- Close the collections that are indented further than a column, or all. -/
def closeTo (r : Reader) (column : Option Nat) : List Nat → Reader
  | [] => { r with columns := [] }
  | i :: is =>
    if column.all (· < i) then
      (r.push .blockEnd).closeTo column is
    else
      { r with columns := i :: is }

/-- Close the collections that end at a column, or all.  Inside brackets none
does. -/
def close (r : Reader) (column : Option Nat) : Reader :=
  if r.depth = 0 then r.closeTo column r.columns else r

/-- Whether a collection at a column is deeper than those that are open. -/
def isDeeper (r : Reader) (column : Nat) : Bool :=
  match r.columns with
  | [] => true
  | i :: _ => i < column

/-- The smallest column of what is inside the innermost open collection. -/
def indent (r : Reader) : Nat :=
  match r.columns with
  | [] => 0
  | i :: _ => i + 1

/-- Drop the candidates of a class.  One that is required may not be dropped. -/
def dropCandidates (r : Reader) (p : Nat × Candidate → Bool) : Except Fault Reader :=
  if r.candidates.any fun k => p k && k.2.required then
    .error .notYaml
  else
    .ok { r with candidates := r.candidates.filter (!p ·) }

/-- Drop the candidates whose key must have ended. -/
def dropStale (r : Reader) : Except Fault Reader :=
  r.dropCandidates fun k => k.2.isStale r.cursor

/-- Drop the candidate of this depth. -/
def dropHere (r : Reader) : Except Fault Reader :=
  r.dropCandidates fun k => k.1 == r.depth

/-- Note that a key may start here. -/
def noteCandidate (r : Reader) : Except Fault Reader :=
  if r.allowKey then do
    let r ← r.dropHere
    let required := r.depth == 0 && r.columns.head? == some r.cursor.column
    return { r with candidates := (r.depth, ⟨r.count, required, r.cursor⟩) :: r.candidates }
  else
    .ok r

/-- Move past spaces, comments and line breaks. -/
def skipSpace (r : Reader) : (fuel : Nat) → Reader
  | 0 => r
  | fuel + 1 =>
    let c := r.cursor.skipRun (· == ' ')
    let c := if c.sees (· == '#') then c.skipRun (!isBreak ·) else c
    match c.lineBreak? with
    | none => { r with cursor := c }
    | some (_, c) =>
      { r with cursor := c, allowKey := r.allowKey || r.depth == 0 }.skipSpace fuel

/-- Move to the next token. -/
def skipToToken (r : Reader) : Reader :=
  let r := if r.cursor.index = 0 ∧ r.cursor.sees (· == '\uFEFF') then r.skip 1 else r
  r.skipSpace (r.cursor.rest.length + 1)

/-! ## Tokens -/

/-- The end of the text. -/
def readEnd (r : Reader) : Except Fault Reader := do
  let r ← (r.close none).dropHere
  return { r with allowKey := false, candidates := [] }.push .streamEnd

/-- A directive. -/
def readDirectiveToken (r : Reader) : Except Fault Reader := do
  let r ← (r.close none).dropHere
  let (t, c) ← readDirective r.cursor
  return { r with allowKey := false, cursor := c }.push t

/-- The mark of a document. -/
def readMarker (r : Reader) (t : Token) : Except Fault Reader := do
  let r ← (r.close none).dropHere
  return ({ r with allowKey := false }.skip 3).push t

/-- An opening bracket or brace. -/
def readOpening (r : Reader) (t : Token) : Except Fault Reader := do
  let r ← r.noteCandidate
  return ({ r with depth := r.depth + 1, allowKey := true }.skip 1).push t

/-- A closing bracket or brace. -/
def readClosing (r : Reader) (t : Token) : Except Fault Reader := do
  let r ← r.dropHere
  return ({ r with depth := r.depth - 1, allowKey := false }.skip 1).push t

/-- A comma. -/
def readComma (r : Reader) : Except Fault Reader := do
  let r ← { r with allowKey := true }.dropHere
  return (r.skip 1).push .flowEntry

/-- Open a collection at a column, unless one is open there or further in. -/
def openAt (r : Reader) (column : Nat) (t : Token) : Reader :=
  if r.isDeeper column then { r with columns := column :: r.columns }.push t else r

/-- Open a collection here for a token that must be allowed to start here. -/
def openHere (r : Reader) (t : Token) : Except Fault Reader :=
  if r.depth ≠ 0 then .ok r
  else if r.allowKey then .ok (r.openAt r.cursor.column t)
  else .error .notYaml

/-- The dash of an item. -/
def readDash (r : Reader) : Except Fault Reader := do
  let r ← r.openHere .blockSequenceStart
  let r ← { r with allowKey := true }.dropHere
  return (r.skip 1).push .blockEntry

/-- The question mark of a key. -/
def readQuestion (r : Reader) : Except Fault Reader := do
  let r ← r.openHere .blockMappingStart
  let r ← { r with allowKey := r.depth == 0 }.dropHere
  return (r.skip 1).push .key

/-- The colon of a value.  If there is a candidate, it was a key. -/
def readColon (r : Reader) : Except Fault Reader := do
  match r.candidates.find? fun k => k.1 == r.depth with
  | some (_, k) =>
    let r := { r with candidates := r.candidates.filter fun k => k.1 != r.depth }
    let r := r.insert k.number .key
    let opens := r.depth == 0 && r.isDeeper k.start.column
    let r :=
      if opens then
        { r with columns := k.start.column :: r.columns }.insert k.number .blockMappingStart
      else
        r
    return ({ r with allowKey := false }.skip 1).push .value
  | none =>
    let r ← r.openHere .blockMappingStart
    let r ← { r with allowKey := r.depth == 0 }.dropHere
    return (r.skip 1).push .value

/-- An alias or anchor. -/
def readReference (r : Reader) (t : String → Token) : Except Fault Reader := do
  let r ← r.noteCandidate
  let (name, c) ← readName r.cursor.next
  return { r with allowKey := false, cursor := c }.push (t name)

/-- A tag. -/
def readTagToken (r : Reader) : Except Fault Reader := do
  let r ← r.noteCandidate
  let (t, c) ← readTag r.cursor
  return { r with allowKey := false, cursor := c }.push t

/-- A block scalar. -/
def readBlock (r : Reader) (folded : Bool) : Except Fault Reader := do
  let r ← { r with allowKey := true }.dropHere
  let (text, c) ← Block.scan folded r.indent r.cursor
  return { r with cursor := c }.push (.scalar (.ofList text) false)

/-- A quoted scalar. -/
def readQuoted (r : Reader) (double : Bool) : Except Fault Reader := do
  let r ← r.noteCandidate
  let (text, c) ← Quoted.scan double r.cursor
  return { r with allowKey := false, cursor := c }.push (.scalar (.ofList text) false)

/-- A plain scalar. -/
def readPlain (r : Reader) : Except Fault Reader := do
  let r ← r.noteCandidate
  let p := Plain.scan (r.depth ≠ 0) r.indent r.cursor
  return { r with allowKey := p.broken, cursor := p.cursor }.push (.scalar (.ofList p.text) true)

/-- Whether a plain scalar can start with a character that is followed by
others. -/
def startsPlain (r : Reader) (d : Char) (after : List Char) : Bool :=
  !(isBlank d || isIndicator d) ||
    (!startsOrEnds isBlank after && (d == '-' || (r.depth == 0 && (d == '?' || d == ':'))))

/-- Read the token that starts with a character. -/
def readToken (r : Reader) (d : Char) (after : List Char) : Except Fault Reader :=
  let atStart := r.cursor.column == 0
  let standsAlone := startsOrEnds isBlank after
  if d == '%' && atStart then r.readDirectiveToken
  else if atStart && atMarker '-' (d :: after) then r.readMarker .documentStart
  else if atStart && atMarker '.' (d :: after) then r.readMarker .documentEnd
  else if d == '[' then r.readOpening .flowSequenceStart
  else if d == '{' then r.readOpening .flowMappingStart
  else if d == ']' then r.readClosing .flowSequenceEnd
  else if d == '}' then r.readClosing .flowMappingEnd
  else if d == ',' then r.readComma
  else if d == '-' && standsAlone then r.readDash
  else if d == '?' && (r.depth != 0 || standsAlone) then r.readQuestion
  else if d == ':' && (r.depth != 0 || standsAlone) then r.readColon
  else if d == '*' then r.readReference .alias
  else if d == '&' then r.readReference .anchor
  else if d == '!' then r.readTagToken
  else if d == '|' && r.depth == 0 then r.readBlock false
  else if d == '>' && r.depth == 0 then r.readBlock true
  else if d == '\'' then r.readQuoted false
  else if d == '"' then r.readQuoted true
  else if r.startsPlain d after then r.readPlain
  else .error .notYaml

/-- Move to the next token and read it. -/
def step (r : Reader) : Except Fault Reader := do
  let r ← r.skipToToken.dropStale
  match r.cursor.rest with
  | [] => (r.close (some r.cursor.column)).readEnd
  | d :: after => (r.close (some r.cursor.column)).readToken d after

/-- The number of tokens that no open candidate comes before. -/
def settled (r : Reader) : Nat :=
  r.candidates.foldl
    (fun n k => if k.2.isStale r.cursor then n else min n k.2.number) r.count

end Reader

/-- The tokens of a text, with the fault that comes behind them if one does. -/
structure Tokens where
  list : List Token
  fault : Option ScalarFault

/-- Read tokens up to the end. -/
def Reader.finish (r : Reader) : (fuel : Nat) → Except Fault Tokens
  | 0 => .error .notYaml
  | fuel + 1 =>
    match r.tokens with
    | .streamEnd :: _ => .ok ⟨r.tokens.reverse, none⟩
    | _ =>
      match r.step with
      | .ok r => r.finish fuel
      | .error .notYaml => .error .notYaml
      | .error (.scalar fault) => .ok ⟨r.tokens.reverse.take r.settled, some fault⟩

/-- The tokens of a text, which may hold allowed characters only. -/
def Tokens.ofText (text : List Char) : Except Fault Tokens :=
  if text.all isAllowed then
    (Reader.start text).finish (text.length + 2)
  else
    .error .notYaml

end ModBuild.Yaml
