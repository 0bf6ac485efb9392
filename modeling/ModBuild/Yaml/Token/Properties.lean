import ModBuild.Encoding.Utf8
import ModBuild.Yaml.Cursor
import ModBuild.Yaml.Fault
import ModBuild.Yaml.Token.Basic

/-!
# Anchors, tags and directives

A node can be named by an anchor, and an alias refers to it by that name.  A
node can have a tag, which is written in full or as a handle and the rest of the
address.  A directive stands on a line of its own before a document.
-/

namespace ModBuild.Yaml

/-- Read the name of an anchor or alias behind its mark. -/
def readName (c : Cursor) : Except Fault (String × Cursor) :=
  let name := c.run isWord
  let c := c.skip name.length
  let ends (d : Char) := isBlank d || "?:,]\x7d%@`".toList.contains d
  if name ≠ [] ∧ c.seesOrEnds ends then .ok (.ofList name, c) else .error .notYaml

/-- The octets of the escapes that follow, each a percent sign and two digits. -/
def escapedOctets (c : Cursor) : (fuel : Nat) → Except Fault (List UInt8 × Cursor)
  | 0 => .error .notYaml
  | fuel + 1 =>
    if c.sees (· == '%') then
      let digits := (c.rest.drop 1).take 2
      if digits.length = 2 ∧ digits.all isHex then do
        let (bs, c) ← escapedOctets (c.skip 3) fuel
        return (UInt8.ofNat (hexNumber digits) :: bs, c)
      else
        .error .notYaml
    else
      .ok ([], c)

/-- The pieces of an address that follow. -/
def addressPieces (c : Cursor) : (fuel : Nat) → Except Fault (List Char × Cursor)
  | 0 => .error .notYaml
  | fuel + 1 =>
    let plain := c.run isAddress
    let c := c.skip plain.length
    if c.sees (· == '%') then do
      let (bs, c) ← escapedOctets c (c.rest.length + 1)
      match Encoding.Utf8.decode bs with
      | .error _ => .error .notYaml
      | .ok cs =>
        let (more, c) ← addressPieces c fuel
        return (plain ++ cs ++ more, c)
    else
      .ok (plain, c)

/-- Read an address, which may not be empty. -/
def readAddress (c : Cursor) : Except Fault (String × Cursor) :=
  if c.sees fun d => isAddress d || d == '%' then do
    let (cs, c) ← addressPieces c (c.rest.length + 1)
    return (.ofList cs, c)
  else
    .error .notYaml

/-- Read a handle: an exclamation mark, alone before a space, or with a name and
a second mark. -/
def readHandle (c : Cursor) : Except Fault (String × Cursor) :=
  if c.sees (· == '!') then
    let after := c.next
    if after.sees (· == ' ') then
      .ok ("!", after)
    else
      let name := after.run isWord
      let end_ := after.skip name.length
      if end_.sees (· == '!') then
        .ok (.ofList ('!' :: (name ++ ['!'])), end_.next)
      else
        .error .notYaml
  else
    .error .notYaml

/-- The end of a tag, which a space, a line break or the end must follow. -/
def endTag (t : Token) (c : Cursor) : Except Fault (Token × Cursor) :=
  if c.seesOrEnds isSpaceOrBreak then .ok (t, c) else .error .notYaml

/-- Read a tag from its first mark on. -/
def readTag (c : Cursor) : Except Fault (Token × Cursor) :=
  let after := c.next
  if after.sees (· == '<') then do
    let (address, c) ← readAddress after.next
    if c.sees (· == '>') then endTag (.tag none address) c.next else .error .notYaml
  else if after.seesOrEnds isBlank then
    endTag (.tag none "!") after
  else if (after.run fun d => d != '!' && !isSpaceOrBreak d).length <
      (after.run fun d => !isSpaceOrBreak d).length then do
    let (handle, c) ← readHandle c
    let (suffix, c) ← readAddress c
    endTag (.tag (some handle) suffix) c
  else do
    let (suffix, c) ← readAddress after
    endTag (.tag (some "!") suffix) c

/-- Read a number of the version of YAML. -/
def readVersionNumber (c : Cursor) : Except Fault (Nat × Cursor) :=
  let digits := c.run Char.isDigit
  if digits = [] then .error .notYaml
  else .ok (Text.digitsValue 0 digits, c.skip digits.length)

/-- Read the version of YAML. -/
def readVersion (c : Cursor) : Except Fault (Directive × Cursor) := do
  let (major, c) ← readVersionNumber (c.skipRun (· == ' '))
  if c.sees (· == '.') then
    let (_, c) ← readVersionNumber c.next
    if c.seesOrEnds isSpaceOrBreak then return (.version major, c) else .error .notYaml
  else
    .error .notYaml

/-- Read a handle and the start of the tags that it stands for. -/
def readTagStart (c : Cursor) : Except Fault (Directive × Cursor) := do
  let (handle, c) ← readHandle (c.skipRun (· == ' '))
  if c.sees (· == ' ') then
    let (start, c) ← readAddress (c.skipRun (· == ' '))
    if c.seesOrEnds isSpaceOrBreak then return (.tag handle start, c) else .error .notYaml
  else
    .error .notYaml

/-- Read a directive from its mark on. -/
def readDirective (c : Cursor) : Except Fault (Token × Cursor) := do
  let name := c.next.run isWord
  let c := c.next.skip name.length
  if name = [] ∨ ¬ c.seesOrEnds isSpaceOrBreak then
    .error .notYaml
  else
    let (d, c) ←
      if name = "YAML".toList then readVersion c
      else if name = "TAG".toList then readTagStart c
      else .ok (.other, c.skipRun (!isBreak ·))
    match c.skipEmptyLine? with
    | some c => return (.directive d, c)
    | none => .error .notYaml

end ModBuild.Yaml
