import ModBuild.Text.Digit
import ModBuild.Text.Quoted

/-!
# API versions

The API of the core library is fixed by the first two numbers of its version.
A version starts with two runs of decimal digits and a dot between them.  What
follows must keep the second number from going on: a dot, a dash, a plus sign,
nothing, or a single line feed.
-/

namespace ModBuild

/-- The two numbers that fix an API. -/
structure ApiVersion where
  major : Nat
  minor : Nat
deriving DecidableEq, Repr

namespace ApiVersion

/-- Whether a number ends before the given text. -/
def endsNumber : List Char → Bool
  | [] => true
  | ['\n'] => true
  | c :: _ => c == '.' || c == '-' || c == '+'

/-- The API version that a version starts with. -/
def ofVersion? (version : String) : Option ApiVersion :=
  let cs := version.toList
  match cs.dropWhile Text.isDigit with
  | '.' :: ds =>
    let major := cs.takeWhile Text.isDigit
    let minor := ds.takeWhile Text.isDigit
    if major = [] ∨ minor = [] ∨ endsNumber (ds.dropWhile Text.isDigit) = false then
      none
    else
      some ⟨Text.digitsValue 0 major, Text.digitsValue 0 minor⟩
  | _ => none

/-- The next API version, which the range of a dependency ends before. -/
def next (v : ApiVersion) : ApiVersion :=
  { v with minor := v.minor + 1 }

/-- The text of an API version. -/
def text (v : ApiVersion) : String :=
  Text.decimal v.major ++ "." ++ Text.decimal v.minor

/-- The message for a version that starts with no API version. -/
def invalidMessage (version : String) : String :=
  "Cannot parse major.minor from version " ++ Text.quoted version

example : ofVersion? "4.12-abcdef1" = some ⟨4, 12⟩ := by decide +kernel
example : ofVersion? "04.٣\n" = some ⟨4, 3⟩ := by decide +kernel
example : ofVersion? "4.12a" = none ∧ ofVersion? ".1" = none := by decide +kernel

end ApiVersion

end ModBuild
