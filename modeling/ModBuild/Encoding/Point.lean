/-!
# Code points

A text is a list of code points.  Nearly all of them are characters.  The others
are *surrogates*, the numbers that UTF-16 sets aside to write other characters
in pairs.  By itself a surrogate is no character, and yet a value can hold one.
-/

namespace ModBuild.Encoding

/-- A number that UTF-16 sets aside. -/
structure Surrogate where
  number : Nat
  low : 0xD800 ≤ number
  high : number < 0xE000
deriving DecidableEq, Repr

/-- A code point. -/
inductive Point where
  | char (c : Char)
  | surrogate (s : Surrogate)
deriving DecidableEq, Repr

/-- The number of a code point. -/
def Point.number : Point → Nat
  | .char c => c.toNat
  | .surrogate s => s.number

/-- The code points of a text without surrogates. -/
def points (s : String) : List Point :=
  s.toList.map .char

end ModBuild.Encoding
