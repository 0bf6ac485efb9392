import ModBuild.Text.Field
import ModBuild.Yaml.Scalar.Timestamp

/-!
# Tags

The tag of a node says how the node is to be read.  Tags are addresses, and the
known ones share a common start.  A plain scalar without a tag gets one from its
form: there are forms for truth values, numbers and dates, and every other text
is a text.

One line break at the end of a text does not change its form.
-/

namespace ModBuild.Yaml

/-- What the tag of a node asks for. -/
inductive Tag where
  | str
  | int
  | float
  | bool
  /-- The absence of a value. -/
  | null
  /-- A date, perhaps with a time. -/
  | timestamp
  | binary
  | seq
  | map
  | set
  /-- A list of pairs, of which each is a mapping with one entry. -/
  | pairs
  /-- The key whose value is a mapping to merge into this one. -/
  | merge
  /-- The key whose value stands for the mapping. -/
  | value
  | unknown
deriving DecidableEq, Repr, Inhabited

/-- The common start of the known tags. -/
def Tag.start : String := "tag:yaml.org,2002:"

/-- The known tags by the end of their address. -/
def Tag.known : List (String × Tag) :=
  [("str", .str), ("int", .int), ("float", .float), ("bool", .bool), ("null", .null),
    ("timestamp", .timestamp), ("binary", .binary), ("seq", .seq), ("map", .map),
    ("set", .set), ("omap", .pairs), ("pairs", .pairs), ("merge", .merge), ("value", .value)]

/-- The tag with an address. -/
def Tag.ofAddress (address : String) : Tag :=
  ((known.find? fun k => start ++ k.1 == address).map (·.2)).getD .unknown

/-! ## Forms -/

/-- A digit or an underscore. -/
def isDigitOrGap (c : Char) : Bool :=
  c.isDigit || c == '_'

/-- A digit, and then digits and underscores. -/
def isCount : List Char → Bool
  | [] => false
  | c :: cs => c.isDigit && cs.all isDigitOrGap

/-- A place of a number in base sixty. -/
def isSixtieth : List Char → Bool
  | [b] => b.isDigit
  | [a, b] => '0' ≤ a && a ≤ '5' && b.isDigit
  | _ => false

/-- A number in base sixty: a count and at least one place. -/
def isSexagesimal (cs : List Char) : Bool :=
  match Text.fields ':' cs with
  | w :: p :: ps => isCount w && (p :: ps).all isSixtieth
  | _ => false

/-- An exponent with its sign, or nothing. -/
def isExponentOrEmpty : List Char → Bool
  | [] => true
  | e :: s :: d :: ds => (e == 'e' || e == 'E') && (s == '+' || s == '-') && (d :: ds).all Char.isDigit
  | _ => false

/-- A text without the sign at its start. -/
def dropSign : List Char → List Char
  | '+' :: cs => cs
  | '-' :: cs => cs
  | cs => cs

/-- The form of a floating-point number. -/
def isFloatForm (cs : List Char) : Bool :=
  let body := dropSign cs
  let whole := body.takeWhile (· != '.')
  match body.dropWhile (· != '.') with
  | [] => false
  | _ :: places =>
    (isCount whole && isExponentOrEmpty (places.dropWhile isDigitOrGap)) ||
      (isSexagesimal whole && places.all isDigitOrGap) ||
      (whole == [] && (places == "inf".toList || places == "Inf".toList || places == "INF".toList)) ||
      (cs.head? == some '.' &&
        (isCount (places.takeWhile isDigitOrGap) && isExponentOrEmpty (places.dropWhile isDigitOrGap) ||
          places == "nan".toList || places == "NaN".toList || places == "NAN".toList))

/-- The form of a whole number. -/
def isIntForm (cs : List Char) : Bool :=
  match dropSign cs with
  | [] => false
  | '0' :: 'b' :: d :: ds => (d :: ds).all fun c => c == '0' || c == '1' || c == '_'
  | '0' :: 'x' :: d :: ds => (d :: ds).all fun c => isHex c || c == '_'
  | '0' :: ds => ds.all fun c => ('0' ≤ c && c ≤ '7') || c == '_'
  | c :: cs => isCount (c :: cs) || isSexagesimal (c :: cs)

/-- The words for truth values. -/
def boolWords : List String :=
  ["yes", "Yes", "YES", "no", "No", "NO", "true", "True", "TRUE", "false", "False", "FALSE",
    "on", "On", "ON", "off", "Off", "OFF"]

/-- The words for the absence of a value. -/
def nullWords : List String :=
  ["~", "null", "Null", "NULL"]

/-- The characters that mean something to YAML when they stand alone. -/
def markWords : List String :=
  ["!", "&", "*"]

/-- The tag that a plain scalar gets from its form. -/
def Tag.ofPlain (text : String) : Tag :=
  let cs := dropFinalBreak text.toList
  let word := String.ofList cs
  if text = "" ∨ word ∈ nullWords then .null
  else if word ∈ boolWords then .bool
  else if isFloatForm cs then .float
  else if isIntForm cs then .int
  else if Timestamp.isPlainForm cs then .timestamp
  else if word = "<<" then .merge
  else if word = "=" then .value
  else if word ∈ markWords then .unknown
  else .str

example : Tag.ofAddress "tag:yaml.org,2002:int" = .int := by decide +kernel
example : Tag.ofPlain "1_000" = .int ∧ Tag.ofPlain "1.0" = .float := by decide +kernel
example : Tag.ofPlain "1e3" = .str ∧ Tag.ofPlain "08" = .str := by decide +kernel
example : Tag.ofPlain "1:30" = .int ∧ Tag.ofPlain "1:99" = .str := by decide +kernel
example : Tag.ofPlain "2024-01-02" = .timestamp ∧ Tag.ofPlain "2024-1-2" = .str := by
  decide +kernel

end ModBuild.Yaml
