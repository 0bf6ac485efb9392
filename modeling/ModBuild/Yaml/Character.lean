/-!
# Characters of YAML

The classes of characters that the lexical rules of YAML 1.1 speak of.  The end
of the text counts as blank wherever a token must be followed by a blank.
-/

namespace ModBuild.Yaml

/-- A character that a YAML text may hold. -/
def isAllowed (c : Char) : Bool :=
  let n := c.toNat
  n == 0x9 || n == 0xA || n == 0xD || (0x20 ≤ n && n ≤ 0x7E) || n == 0x85 ||
    (0xA0 ≤ n && n ≤ 0xFFFD) || 0x10000 ≤ n

/-- A character that ends a line. -/
def isBreak (c : Char) : Bool :=
  c == '\n' || c == '\r' || c == '\u0085' || c == '\u2028' || c == '\u2029'

/-- A space or a tab. -/
def isWhite (c : Char) : Bool :=
  c == ' ' || c == '\t'

/-- A space or a character that ends a line. -/
def isSpaceOrBreak (c : Char) : Bool :=
  c == ' ' || isBreak c

/-- A space, a tab or a character that ends a line. -/
def isBlank (c : Char) : Bool :=
  isWhite c || isBreak c

/-- A character of a name: a letter or digit of ASCII, a dash or an underscore. -/
def isWord (c : Char) : Bool :=
  c.isAlphanum || c == '-' || c == '_'

/-- A hexadecimal digit. -/
def isHex (c : Char) : Bool :=
  c.isDigit || ('a' ≤ c && c ≤ 'f') || ('A' ≤ c && c ≤ 'F')

/-- The value of a hexadecimal digit. -/
def hexValue (c : Char) : Nat :=
  if c.isDigit then c.toNat - 48
  else if 'a' ≤ c then c.toNat - 87
  else c.toNat - 55

/-- The number that hexadecimal digits count. -/
def hexNumber (cs : List Char) : Nat :=
  cs.foldl (fun n c => 16 * n + hexValue c) 0

/-- A character of the address that a tag is made of. -/
def isAddress (c : Char) : Bool :=
  c.isAlphanum || "-;/?:@&=+$,_.!~*'()[]".toList.contains c

/-- A bracket or comma, which has a meaning of its own inside brackets. -/
def isFlowMark (c : Char) : Bool :=
  c == ',' || c == '[' || c == ']' || c == '{' || c == '}'

/-- A character that means something at the start of a token. -/
def isIndicator (c : Char) : Bool :=
  "-?:,[]\x7b\x7d#&*!|>'\"%@`".toList.contains c

/-- A list of characters that ends or goes on with a character of a class. -/
def startsOrEnds (p : Char → Bool) : List Char → Bool
  | [] => true
  | c :: _ => p c

/-- Whether a line starts with the mark of a document's start or end, given by
the character that it repeats. -/
def atMarker (mark : Char) : List Char → Bool
  | a :: b :: c :: cs => a == mark && b == mark && c == mark && startsOrEnds isBlank cs
  | _ => false

/-- Whether a line starts with either mark of a document. -/
def atAnyMarker (cs : List Char) : Bool :=
  atMarker '-' cs || atMarker '.' cs

end ModBuild.Yaml
