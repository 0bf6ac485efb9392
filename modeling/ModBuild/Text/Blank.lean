/-!
# Blank characters

A text is *blank* when nothing is left of it after its blank characters are
taken off both ends.  The blank characters are the white space of Unicode
together with the four separators U+001C to U+001F, which bound files, groups,
records and units of plain text.

`trim` takes blanks off both ends of a list of characters and never touches
one inside.  `trimmed` is the same on strings.
-/

namespace ModBuild.Text

/-- White space of Unicode, and the four separators U+001C to U+001F. -/
def isBlank (c : Char) : Bool :=
  let n := c.toNat
  (0x9 ≤ n && n ≤ 0xD) || (0x1C ≤ n && n ≤ 0x20) || n == 0x85 || n == 0xA0 || n == 0x1680 ||
    (0x2000 ≤ n && n ≤ 0x200A) || n == 0x2028 || n == 0x2029 || n == 0x202F || n == 0x205F ||
    n == 0x3000

/-- Take the blanks off the front. -/
def trimStart (cs : List Char) : List Char :=
  cs.dropWhile isBlank

/-- Take the blanks off the end. -/
def trimEnd (cs : List Char) : List Char :=
  (cs.reverse.dropWhile isBlank).reverse

/-- Take the blanks off both ends. -/
def trim (cs : List Char) : List Char :=
  trimEnd (trimStart cs)

/-- A string without the blanks at its ends. -/
def trimmed (s : String) : String :=
  .ofList (trim s.toList)

/-- Nothing but blanks. -/
def AllBlank (s : String) : Prop :=
  ∀ c ∈ s.toList, isBlank c = true

instance (s : String) : Decidable (AllBlank s) :=
  List.decidableBAll (fun c => isBlank c = true) s.toList

example : trim " \t a b\u3000".toList = "a b".toList := by decide
example : trim "\x1f \u2029".toList = [] := by decide

end ModBuild.Text
