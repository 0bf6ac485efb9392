import ModBuild.Text.Printable

/-!
# Quoted text

Messages show a text between quotation marks, so that its ends and its odd
characters can be seen.  The mark is `'`, unless the text holds a `'` and no
`"`.  The backslash, the mark, the tab and the two line ends are written with a
backslash.  Any other character that is not printable is written by its number,
in two, four or eight hexadecimal digits.

A run of octets is shown in the same way, after the letter `b`.
-/

namespace ModBuild.Text

/-- The last `width` hexadecimal digits of a number. -/
def hexDigits : (width : Nat) → Nat → List Char
  | 0, _ => []
  | w + 1, n => hexDigits w (n / 16) ++ [Nat.digitChar (n % 16)]

/-- The mark that encloses a text. -/
def quoteMark (cs : List Char) : Char :=
  if '\'' ∈ cs ∧ '"' ∉ cs then '"' else '\''

/-- The escapes that a text and a run of octets share, for a given mark. -/
def commonEscape? (mark c : Char) : Option (List Char) :=
  if c = mark ∨ c = '\\' then some ['\\', c]
  else if c = '\n' then some ['\\', 'n']
  else if c = '\r' then some ['\\', 'r']
  else if c = '\t' then some ['\\', 't']
  else none

/-- A character by its number. -/
def numberEscape (n : Nat) : List Char :=
  if n < 0x100 then '\\' :: 'x' :: hexDigits 2 n
  else if n < 0x10000 then '\\' :: 'u' :: hexDigits 4 n
  else '\\' :: 'U' :: hexDigits 8 n

/-- One character between marks. -/
def quoteChar (mark c : Char) : List Char :=
  (commonEscape? mark c).getD (if isPrintable c then [c] else numberEscape c.toNat)

/-- A text between marks. -/
def quoteChars (cs : List Char) : List Char :=
  let mark := quoteMark cs
  mark :: (cs.flatMap (quoteChar mark) ++ [mark])

/-- A text as messages show it. -/
def quoted (s : String) : String :=
  .ofList (quoteChars s.toList)

/-- A list of texts as messages show it. -/
def quotedList (names : List String) : String :=
  "[" ++ ", ".intercalate (names.map quoted) ++ "]"

/-- One octet between marks, shown as the character of its number if it is
plain ASCII. -/
def quoteOctet (mark : Char) (b : UInt8) : List Char :=
  let c := Char.ofNat b.toNat
  (commonEscape? mark c).getD
    (if 0x20 ≤ b ∧ b < 0x7F then [c] else numberEscape b.toNat)

/-- A run of octets as messages show it. -/
def quotedOctets (bs : List UInt8) : String :=
  let mark := quoteMark (bs.map fun b => Char.ofNat b.toNat)
  .ofList ('b' :: mark :: (bs.flatMap (quoteOctet mark) ++ [mark]))

example : quoted "it's" = "\"it's\"" := by decide +kernel
example : quoted "a\n'\"" = "'a\\n\\'\"'" := by decide +kernel
example : quoted "\u200b\x01" = "'\\u200b\\x01'" := by decide +kernel
example : quotedList ["A", "B"] = "['A', 'B']" := by decide +kernel

end ModBuild.Text
