import ModBuild.Text.Digit

/-!
# The text of a floating-point number

A number is written with the fewest decimal digits that read back as the same
number, and of those with the digits nearest to it, where a tie goes to the
even last digit.  The text is positional for decimal exponents from -4 to 15,
with `.0` after a whole number, and has a signed exponent of at least two
digits otherwise.

A positive finite number is a whole number of units `2 ^ exponent`.  The
decimals that read back as it fill the *interval* between the halfway points to
its two neighbours.  On each decimal grid, from coarse to fine, only the two
points around the number need a look.  All of this is exact arithmetic on
natural numbers.
-/

namespace ModBuild.Document.Binary64

/-- A quotient of natural numbers. -/
structure Ratio where
  num : Nat
  /-- The denominator, which is positive in every use. -/
  den : Nat

/-- A natural number of units `2 ^ exponent`. -/
def Ratio.ofBinary (mantissa : Nat) (exponent : Int) : Ratio :=
  ⟨mantissa * Nat.pow 2 exponent.toNat, Nat.pow 2 (-exponent).toNat⟩

/-- A natural number of units `10 ^ exponent`. -/
def Ratio.ofDecimal (digits : Nat) (exponent : Int) : Ratio :=
  ⟨digits * Nat.pow 10 exponent.toNat, Nat.pow 10 (-exponent).toNat⟩

/-- Strictly below. -/
def Ratio.lt (a b : Ratio) : Bool :=
  a.num * b.den < b.num * a.den

/-- The distance between two quotients. -/
def Ratio.distance (a b : Ratio) : Ratio :=
  let x := a.num * b.den
  let y := b.num * a.den
  ⟨(x - y) + (y - x), a.den * b.den⟩

/-- The whole number of units `10 ^ exponent` in a quotient. -/
def Ratio.floor (a : Ratio) (exponent : Int) : Nat :=
  a.num * Nat.pow 10 (-exponent).toNat / (a.den * Nat.pow 10 exponent.toNat)

/-- The bits of a number, taken apart: sign, biased exponent, fraction. -/
structure Fields where
  negative : Bool
  /-- The eleven bits of the biased exponent. -/
  biased : Nat
  /-- The fifty-two bits of the fraction. -/
  fraction : Nat

/-- Take the bits of a number apart. -/
def Fields.ofBits (bits : UInt64) : Fields :=
  let n := bits.toNat
  ⟨n / Nat.pow 2 63 == 1, n / Nat.pow 2 52 % 2048, n % Nat.pow 2 52⟩

/-- The mantissa of a finite number. -/
def Fields.mantissa (f : Fields) : Nat :=
  if f.biased = 0 then f.fraction else f.fraction + Nat.pow 2 52

/-- The binary exponent of a finite number. -/
def Fields.exponent (f : Fields) : Int :=
  (max f.biased 1 : Nat) - 1075

/-- The absolute value of a finite number. -/
def Fields.magnitude (f : Fields) : Ratio :=
  .ofBinary f.mantissa f.exponent

/-- Whether a decimal reads back as the absolute value of a finite number.  A
power of two has a nearer neighbour below than above.  The ends of the interval
belong to it if the mantissa is even. -/
def Fields.readsBack (f : Fields) (d : Ratio) : Bool :=
  let m := f.mantissa
  let low := if f.fraction = 0 ∧ 1 < f.biased then 4 * m - 1 else 4 * m - 2
  let lower := Ratio.ofBinary low (f.exponent - 2)
  let upper := Ratio.ofBinary (4 * m + 2) (f.exponent - 2)
  if m % 2 = 0 then !(d.lt lower) && !(upper.lt d) else lower.lt d && d.lt upper

/-- The least exponent `e` from `from` on such that a quotient is below
`10 ^ e`, at most `fuel` steps away. -/
def Ratio.decimalExponent (a : Ratio) (start : Int) : (fuel : Nat) → Int
  | 0 => start
  | fuel + 1 => if a.lt (.ofDecimal 1 start) then start else a.decimalExponent (start + 1) fuel

/-- The first point, from the grid of `count` digits on, that reads back: its
digits and the exponent of its unit. -/
def Fields.shortestFrom (f : Fields) (top : Int) (count : Nat) : (fuel : Nat) → Nat × Int
  | 0 => (0, 0)
  | fuel + 1 =>
    let unit := top - count
    let below := f.magnitude.floor unit
    let hit (d : Nat) := f.readsBack (.ofDecimal d unit)
    match hit below, hit (below + 1) with
    | true, true =>
      let down := f.magnitude.distance (.ofDecimal below unit)
      let up := f.magnitude.distance (.ofDecimal (below + 1) unit)
      if up.lt down || !(down.lt up) && below % 2 == 1 then
        (below + 1, unit)
      else
        (below, unit)
    | true, false => (below, unit)
    | false, true => (below + 1, unit)
    | false, false => f.shortestFrom top (count + 1) fuel

/-- The digits of a finite number and the exponent of their unit. -/
def Fields.shortest (f : Fields) : Nat × Int :=
  f.shortestFrom (f.magnitude.decimalExponent (-330) 660) 1 17

/-- Drop the zeros at the end of some digits, and count them into the exponent
of the unit. -/
def dropZeros (digits : List Char) (unit : Int) : List Char × Int :=
  let kept := (digits.reverse.dropWhile (· == '0')).reverse
  (kept, unit + (digits.length - kept.length : Nat))

/-- A decimal exponent with its sign, in at least two digits. -/
def exponentText (e : Int) : List Char :=
  let digits := Nat.toDigits 10 e.natAbs
  (if e < 0 then '-' else '+') :: (if digits.length < 2 then '0' :: digits else digits)

/-- Digits with a point, for the exponent of their unit. -/
def layout (digits : List Char) (unit : Int) : List Char :=
  let count : Int := digits.length
  let exponent := count + unit - 1
  if -4 ≤ exponent ∧ exponent < 16 then
    if 0 ≤ unit then
      digits ++ List.replicate unit.toNat '0' ++ ['.', '0']
    else if 0 < count + unit then
      digits.take (count + unit).toNat ++ '.' :: digits.drop (count + unit).toNat
    else
      ['0', '.'] ++ List.replicate (-(count + unit)).toNat '0' ++ digits
  else
    match digits with
    | [] => []
    | [d] => d :: 'e' :: exponentText exponent
    | d :: ds => d :: '.' :: (ds ++ 'e' :: exponentText exponent)

/-- The text of the number with the given bits. -/
def text (bits : UInt64) : String :=
  let f := Fields.ofBits bits
  let sign := if f.negative then "-" else ""
  if f.biased = 2047 then
    if f.fraction = 0 then sign ++ "inf" else "nan"
  else if f.mantissa = 0 then
    sign ++ "0.0"
  else
    let (digits, unit) := f.shortest
    let (digits, unit) := dropZeros (Nat.toDigits 10 digits) unit
    sign ++ .ofList (layout digits unit)

/-- The number nearest to a decimal, as bits.  A decimal out of range goes to
infinity or to zero without being written out. -/
def ofDecimal (digits : Nat) (exponent : Int) : Float :=
  let top := (Nat.toDigits 10 digits).length + exponent
  if digits = 0 ∨ top < -330 then
    0.0
  else if 310 < top then
    1.0 / 0.0
  else
    Float.ofScientific digits (decide (exponent < 0)) exponent.natAbs

end ModBuild.Document.Binary64
