/-!
# Lines

A text is cut into lines at every *line break*: line feed, carriage return,
the two of them in that order, line and form tabulation, the separators of
files, groups and records, next line, and the line and paragraph separators.
A break at the very end opens no further line.

`unifyBreaks` writes each carriage return, alone or before a line feed, as one
line feed.  This is how a text file is read, and it happens before the cut.
-/

namespace ModBuild.Text

/-- A character that ends a line. -/
def isLineBreak (c : Char) : Bool :=
  let n := c.toNat
  (0xA ≤ n && n ≤ 0xD) || (0x1C ≤ n && n ≤ 0x1E) || n == 0x85 || n == 0x2028 || n == 0x2029

/-- The lines of a text, without their breaks. -/
def lines : List Char → List (List Char)
  | [] => []
  | '\r' :: '\n' :: cs => [] :: lines cs
  | c :: cs =>
    if isLineBreak c then
      [] :: lines cs
    else
      match lines cs with
      | [] => [[c]]
      | l :: ls => (c :: l) :: ls

/-- Write every carriage return, and every pair of a carriage return and a
line feed, as one line feed. -/
def unifyBreaks : List Char → List Char
  | [] => []
  | '\r' :: '\n' :: cs => '\n' :: unifyBreaks cs
  | c :: cs => (if c = '\r' then '\n' else c) :: unifyBreaks cs

example : lines "a\r\nb\n\nc\n".toList = ["a".toList, "b".toList, [], "c".toList] := by decide
example : lines "a\x0cb".toList = ["a".toList, "b".toList] := by decide
example : unifyBreaks "a\r\r\nb".toList = "a\n\nb".toList := by decide

end ModBuild.Text
