import ModBuild.Yaml.Cursor
import ModBuild.Yaml.Fault

/-!
# Quoted scalars

A quoted scalar goes on to its closing mark.  Between two single quotes a
doubled quote stands for one.  Between two double quotes a backslash starts an
escape: a short one, a character by its number, or a line break that does not
count.  Blanks around a line break are dropped and the break is folded, as in a
plain scalar.  The mark of a document may not stand at the start of a line.
-/

namespace ModBuild.Yaml.Quoted

/-- The character that a short escape stands for. -/
def shortEscape? : Char → Option Char
  | '0' => some '\x00'
  | 'a' => some '\x07'
  | 'b' => some '\x08'
  | 't' => some '\t'
  | '\t' => some '\t'
  | 'n' => some '\n'
  | 'v' => some '\x0b'
  | 'f' => some '\x0c'
  | 'r' => some '\r'
  | 'e' => some '\x1b'
  | ' ' => some ' '
  | '"' => some '"'
  | '\\' => some '\\'
  | '/' => some '/'
  | 'N' => some '\u0085'
  | '_' => some '\u00a0'
  | 'L' => some '\u2028'
  | 'P' => some '\u2029'
  | _ => none

/-- The number of digits of an escape that gives a character by its number. -/
def numberLength? : Char → Option Nat
  | 'x' => some 2
  | 'u' => some 4
  | 'U' => some 8
  | _ => none

/-- The character with a number.  The texts of a document hold no surrogates, so the
replacement character stands for each of them. -/
def character (n : Nat) : Except Fault Char :=
  if 0x7FFFFFFF < n then .error (.scalar .characterSize)
  else if 0x10FFFF < n then .error (.scalar .character)
  else if 0xD800 ≤ n ∧ n ≤ 0xDFFF then .ok '\uFFFD'
  else .ok (Char.ofNat n)

/-- Read a character by its number, which has a given count of digits. -/
def numbered (count : Nat) (c : Cursor) : Except Fault (Char × Cursor) :=
  let digits := c.rest.take count
  if digits.length = count ∧ digits.all isHex then do
    return (← character (hexNumber digits), c.skip count)
  else
    .error .notYaml

/-- The line breaks that follow, with the blanks before each skipped. -/
def breaks (c : Cursor) : (fuel : Nat) → Except Fault (List Char × Cursor)
  | 0 => .error .notYaml
  | fuel + 1 =>
    if atAnyMarker c.rest then
      .error .notYaml
    else
      let c := c.skipRun isWhite
      match c.lineBreak? with
      | none => .ok ([], c)
      | some (b, c) => do
        let (bs, c) ← breaks c fuel
        return (b :: bs, c)

/-- Read on after the backslash of an escape. -/
def escape (c : Cursor) : Except Fault (List Char × Cursor) :=
  match c.rest with
  | [] => .error .notYaml
  | d :: _ =>
    match shortEscape? d, numberLength? d, c.lineBreak? with
    | some e, _, _ => .ok ([e], c.next)
    | none, some count, _ => do
      let (e, c) ← numbered count c.next
      return ([e], c)
    | none, none, some (_, c) => breaks c (c.rest.length + 1)
    | none, none, none => .error .notYaml

/-- Read blanks and line breaks inside a scalar. -/
def spaces (c : Cursor) : Except Fault (List Char × Cursor) :=
  let blanks := c.run isWhite
  let c := c.skip blanks.length
  match c.rest, c.lineBreak? with
  | [], _ => .error .notYaml
  | _, none => .ok (blanks, c)
  | _, some (b, c) => do
    let (bs, c) ← breaks c (c.rest.length + 1)
    return (if b ≠ '\n' then b :: bs else if bs = [] then [' '] else bs, c)

/-- Read the inside of a scalar and its closing mark. -/
def inside (double : Bool) (c : Cursor) : (fuel : Nat) → Except Fault (List Char × Cursor)
  | 0 => .error .notYaml
  | fuel + 1 =>
    match c.rest with
    | [] => .error .notYaml
    | '\'' :: '\'' :: _ =>
      if double then do
        let (cs, c) ← inside double c.next fuel
        return ('\'' :: cs, c)
      else do
        let (cs, c) ← inside double (c.skip 2) fuel
        return ('\'' :: cs, c)
    | d :: _ =>
      if d == (if double then '"' else '\'') then
        .ok ([], c.next)
      else if double && d == '\\' then do
        let (e, c) ← escape c.next
        let (cs, c) ← inside double c fuel
        return (e ++ cs, c)
      else if isBlank d then do
        let (s, c) ← spaces c
        let (cs, c) ← inside double c fuel
        return (s ++ cs, c)
      else do
        let (cs, c) ← inside double c.next fuel
        return (d :: cs, c)

/-- Read a quoted scalar from its opening mark on. -/
def scan (double : Bool) (c : Cursor) : Except Fault (List Char × Cursor) :=
  inside double c.next (c.rest.length + 1)

end ModBuild.Yaml.Quoted
