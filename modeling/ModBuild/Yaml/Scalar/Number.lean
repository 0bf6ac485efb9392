import ModBuild.Document.Binary64
import ModBuild.Text.Blank
import ModBuild.Text.Field
import ModBuild.Yaml.Fault

/-!
# Numbers

The text of a number may have underscores anywhere, which count for nothing, and
a sign in front.  Whole numbers can be binary, octal, decimal, hexadecimal or in
base sixty, where colons stand between the places.  Floating-point numbers can
be decimal or in base sixty.

A tag can ask for a number where the text does not have the form of one, so the
text of a place is read with care: blanks around it are dropped, it may have a
sign of its own, and its digits may be of any script.
-/

namespace ModBuild.Yaml.Number

/-- A blank that may stand around a number, which no separator of files, groups,
records or units may. -/
def isMargin (c : Char) : Bool :=
  Text.isBlank c && !(0x1C ≤ c.toNat && c.toNat ≤ 0x1F)

/-- A text without blanks around it, with digits of ASCII for those of any
script. -/
def plain (cs : List Char) : List Char :=
  let cs := ((cs.dropWhile isMargin).reverse.dropWhile isMargin).reverse
  cs.map fun c => ((Text.digitValue? c).map Nat.digitChar).getD c

/-- Whether a text has a minus in front, and the text without its sign. -/
def signed : List Char → Bool × List Char
  | '-' :: cs => (true, cs)
  | '+' :: cs => (false, cs)
  | cs => (false, cs)

/-- The value of a digit in bases up to sixteen. -/
def digitValue? (c : Char) : Option Nat :=
  if c.isDigit then some (c.toNat - 48)
  else if 'a' ≤ c ∧ c ≤ 'f' then some (c.toNat - 87)
  else if 'A' ≤ c ∧ c ≤ 'F' then some (c.toNat - 55)
  else none

/-- The number that digits count in a base, on top of those read before. -/
def digitsValue? (base before : Nat) : List Char → Option Nat
  | [] => some before
  | c :: cs =>
    match digitValue? c with
    | some d => if d < base then digitsValue? base (base * before + d) cs else none
    | none => none

/-- The letter that marks a base. -/
def baseLetter? (base : Nat) : Option Char :=
  if base = 2 then some 'b'
  else if base = 8 then some 'o'
  else if base = 16 then some 'x'
  else none

/-- Digits without the mark of their base, a zero and a letter. -/
def dropBaseMark (base : Nat) : List Char → List Char
  | '0' :: l :: cs => if baseLetter? base = some l.toLower then cs else '0' :: l :: cs
  | cs => cs

/-- Read a whole number in a base. -/
def whole (base : Nat) (cs : List Char) : Except ScalarFault Int :=
  let (negative, digits) := signed (plain cs)
  match dropBaseMark base digits with
  | [] => .error (.notInteger base (.ofList cs))
  | d :: ds =>
    match digitsValue? base 0 (d :: ds) with
    | some n => .ok (if negative then -n else n)
    | none => .error (.notInteger base (.ofList cs))

/-- The digits of a decimal number with the exponent of their unit, and what
follows them. -/
def decimal (cs : List Char) : List Char × Int × List Char :=
  let before := cs.takeWhile Char.isDigit
  match cs.dropWhile Char.isDigit with
  | '.' :: cs =>
    let after := cs.takeWhile Char.isDigit
    (before ++ after, -after.length, cs.dropWhile Char.isDigit)
  | cs => (before, 0, cs)

/-- Read an exponent, up to the end. -/
def exponent? : List Char → Option Int
  | [] => some 0
  | e :: cs =>
    if e = 'e' then
      match signed cs with
      | (_, []) => none
      | (negative, d :: ds) =>
        (digitsValue? 10 0 (d :: ds)).map fun n => if negative then -(n : Int) else n
    else
      none

/-- Read a floating-point number without its sign, in small letters. -/
def magnitude? (cs : List Char) : Option Float :=
  if cs = "inf".toList ∨ cs = "infinity".toList then
    some (1.0 / 0.0)
  else if cs = "nan".toList then
    some (0.0 / 0.0)
  else
    let (digits, unit, rest) := decimal cs
    if digits = [] then
      none
    else
      (exponent? rest).map fun e => Document.Binary64.ofDecimal (Text.digitsValue 0 digits) (unit + e)

/-- Read a floating-point number in small letters. -/
def real (cs : List Char) : Except ScalarFault Float :=
  let (negative, body) := signed (plain cs)
  match magnitude? body with
  | some x => .ok (if negative then -x else x)
  | none => .error (.notReal (.ofList cs))

/-- A text without its underscores. -/
def dropGaps (cs : List Char) : List Char :=
  cs.filter (· ≠ '_')

/-- The value of a whole number without its sign, which may not be empty. -/
def unsignedInt (cs : List Char) : Except ScalarFault Int :=
  match cs with
  | [] => .error .emptyNumber
  | ['0'] => .ok 0
  | '0' :: 'b' :: ds => whole 2 ds
  | '0' :: 'x' :: ds => whole 16 ds
  | '0' :: _ => whole 8 cs
  | _ =>
    if ':' ∈ cs then do
      let places ← (Text.fields ':' cs).mapM (whole 10)
      return places.foldl (fun n d => 60 * n + d) 0
    else
      whole 10 cs

/-- The value of the text of a whole number. -/
def intOf (text : String) : Except ScalarFault Int :=
  match dropGaps text.toList with
  | [] => .error .emptyNumber
  | c :: cs =>
    let (negative, body) := signed (c :: cs)
    (unsignedInt body).map fun n => if negative then -n else n

/-- The sum of places in base sixty, the last place first. -/
def sumPlaces (sum : Float) (weight : Nat) : List Float → Float
  | [] => sum
  | d :: ds => sumPlaces (sum + d * Document.Binary64.ofDecimal weight 0) (60 * weight) ds

/-- The number of places in base sixty whose weights are all in range. -/
def maxPlaces : Nat := 174

/-- The value of a floating-point number without its sign. -/
def unsignedFloat (cs : List Char) : Except ScalarFault Float :=
  if cs = ".inf".toList then
    .ok (1.0 / 0.0)
  else if cs = ".nan".toList then
    .ok (0.0 / 0.0)
  else if ':' ∈ cs then do
    let places ← (Text.fields ':' cs).mapM real
    if places.length ≤ maxPlaces then
      return sumPlaces 0.0 1 places.reverse
    else
      .error .tooManyPlaces
  else
    real cs

/-- The value of the text of a floating-point number. -/
def floatOf (text : String) : Except ScalarFault Float :=
  match (dropGaps text.toList).map Char.toLower with
  | [] => .error .emptyNumber
  | c :: cs =>
    let (negative, body) := signed (c :: cs)
    (unsignedFloat body).map fun x => if negative then -x else x

example : (intOf "-0x_1F").toOption = some (-31) := by decide +kernel
example : (intOf "1:30").toOption = some 90 := by decide +kernel
example : (intOf "08").toOption = none := by decide +kernel

end ModBuild.Yaml.Number
