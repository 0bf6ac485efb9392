import ModBuild.Document.Value
import ModBuild.Yaml.Character

/-!
# JSON texts

A JSON text is a sequence of *lexemes* with white space before each of them and at the end.  A
lexeme is a bracket, a brace, a comma, a scalar, or the name of a member with the colon behind
it.  Lexemes are kept as they are spelled: two texts that differ in an escape or in the form of
a number are two texts here, also if they encode the same value.

Which value a text encodes depends on how its strings and numbers are read.  A `Reading` says
so, and `Reading.own` is that of JSON itself.
-/

namespace ModBuild.Json

open Document (Key Value)

/-! ## White space -/

/-- A character that counts for nothing between lexemes. -/
def isSpace (c : Char) : Bool :=
  c == ' ' || c == '\t' || c == '\n' || c == '\r'

/-- White space, or nothing. -/
structure Gap where
  chars : List Char
  spaces : chars.all isSpace

/-! ## Strings -/

/-- Four hexadecimal digits. -/
structure Hex where
  digits : List Char
  length : digits.length = 4
  isHex : digits.all Yaml.isHex

/-- The number that hexadecimal digits count. -/
def Hex.value (h : Hex) : Nat :=
  Yaml.hexNumber h.digits

/-- Whether a number is the first of a pair of surrogates. -/
def isHigh (n : Nat) : Bool :=
  0xD800 ≤ n && n ≤ 0xDBFF

/-- Whether a number is the second of a pair of surrogates. -/
def isLow (n : Nat) : Bool :=
  0xDC00 ≤ n && n ≤ 0xDFFF

/-- The character that a short escape stands for. -/
def short? : Char → Option Char
  | '"' => some '"'
  | '\\' => some '\\'
  | '/' => some '/'
  | 'b' => some '\x08'
  | 'f' => some '\x0c'
  | 'n' => some '\n'
  | 'r' => some '\r'
  | 't' => some '\t'
  | _ => none

/-- Whether a character can stand for itself in a string. -/
def isUnescaped (c : Char) : Bool :=
  0x20 ≤ c.toNat && c != '"' && c != '\\'

/-- A character of a string as it is spelled. -/
inductive Glyph where
  /-- The character itself. -/
  | plain (c : Char) (h : isUnescaped c)
  /-- A short escape. -/
  | short (letter c : Char) (h : short? letter = some c)
  /-- An escape that gives the number of the character. -/
  | number (n : Hex) (h : isHigh n.value = false ∧ isLow n.value = false)
  /-- Two escapes that give the number of the character as a pair of surrogates. -/
  | pair (high low : Hex) (h : isHigh high.value ∧ isLow low.value)

/-- The spelling of a character. -/
def Glyph.chars : Glyph → List Char
  | plain c _ => [c]
  | short letter _ _ => ['\\', letter]
  | number n _ => '\\' :: 'u' :: n.digits
  | pair high low _ => '\\' :: 'u' :: high.digits ++ '\\' :: 'u' :: low.digits

/-- The character that is spelled. -/
def Glyph.char : Glyph → Char
  | plain c _ => c
  | short _ c _ => c
  | number n _ => .ofNat n.value
  | pair high low _ => .ofNat (0x10000 + 0x400 * (high.value - 0xD800) + (low.value - 0xDC00))

/-- The spelling of a string, with its marks. -/
def quoted (gs : List Glyph) : List Char :=
  '"' :: (gs.flatMap Glyph.chars ++ ['"'])

/-! ## Numbers -/

/-- One or more decimal digits. -/
structure Digits where
  chars : List Char
  nonempty : chars ≠ []
  isDigit : chars.all Char.isDigit

/-- The number that decimal digits count. -/
def Digits.value (d : Digits) : Nat :=
  Text.digitsValue 0 d.chars

/-- The sign of an exponent, which may be missing. -/
inductive Sign where
  | missing
  | plus
  | minus
deriving DecidableEq

/-- The spelling of a sign. -/
def Sign.chars : Sign → List Char
  | missing => []
  | plus => ['+']
  | minus => ['-']

/-- An exponent. -/
structure Exponent where
  /-- Whether its letter is a capital one. -/
  capital : Bool
  sign : Sign
  digits : Digits

/-- The spelling of an exponent. -/
def Exponent.chars (e : Exponent) : List Char :=
  (if e.capital then 'E' else 'e') :: (e.sign.chars ++ e.digits.chars)

/-- The value of an exponent. -/
def Exponent.value (e : Exponent) : Int :=
  if e.sign = .minus then -e.digits.value else e.digits.value

/-- A number. -/
structure Number where
  negative : Bool
  whole : Digits
  /-- Only zero starts with a zero. -/
  leading : whole.chars.head? = some '0' → whole.chars = ['0']
  /-- The digits behind the point, if there is one. -/
  places : Option Digits
  exponent : Option Exponent

/-- The point of a number and the digits behind it. -/
def Number.pointChars (n : Number) : List Char :=
  (n.places.map fun d => '.' :: d.chars).getD []

/-- The exponent of a number. -/
def Number.exponentChars (n : Number) : List Char :=
  (n.exponent.map Exponent.chars).getD []

/-- The spelling of a number without its sign. -/
def Number.unsigned (n : Number) : List Char :=
  n.whole.chars ++ n.pointChars ++ n.exponentChars

/-- The spelling of a number. -/
def Number.chars (n : Number) : List Char :=
  if n.negative then '-' :: n.unsigned else n.unsigned

/-- The floating-point number nearest to a number. -/
def Number.float (n : Number) : Float :=
  let places := (n.places.map Digits.chars).getD []
  let exponent := (n.exponent.map Exponent.value).getD 0
  let x := Document.Binary64.ofDecimal (Text.digitsValue 0 (n.whole.chars ++ places))
    (-places.length + exponent)
  if n.negative then -x else x

/-- The value of a number.  It is whole if it has neither a point nor an exponent. -/
def Number.key (n : Number) : Key :=
  if n.places.isNone ∧ n.exponent.isNone then
    .int (if n.negative then -n.whole.value else n.whole.value)
  else
    .float n.float.toBits

/-! ## Lexemes -/

/-- A value without parts. -/
inductive Scalar where
  | null
  | bool (b : Bool)
  | number (n : Number)
  | string (gs : List Glyph)

/-- The spelling of a scalar. -/
def Scalar.chars : Scalar → List Char
  | null => "null".toList
  | bool true => "true".toList
  | bool false => "false".toList
  | number n => n.chars
  | string gs => quoted gs

/-- A lexeme. -/
inductive Lexeme where
  | openArray
  | closeArray
  | openObject
  | closeObject
  | comma
  | scalar (s : Scalar)
  /-- The name of a member, the white space behind it, and a colon. -/
  | name (gs : List Glyph) (gap : Gap)

/-- The spelling of a lexeme. -/
def Lexeme.chars : Lexeme → List Char
  | openArray => ['[']
  | closeArray => [']']
  | openObject => ['{']
  | closeObject => ['}']
  | comma => [',']
  | scalar s => s.chars
  | name gs gap => quoted gs ++ (gap.chars ++ [':'])

/-- A lexeme with the white space in front of it. -/
structure Piece where
  gap : Gap
  lexeme : Lexeme

/-- The characters of a piece. -/
def Piece.chars (p : Piece) : List Char :=
  p.gap.chars ++ p.lexeme.chars

/-- A sequence of lexemes, laid out in white space. -/
structure Text where
  pieces : List Piece
  /-- The white space at the end. -/
  final : Gap

/-- The characters of a text. -/
def Text.chars (t : Text) : List Char :=
  t.pieces.flatMap Piece.chars ++ t.final.chars

/-! ## Values -/

/-- How strings and numbers are read. -/
structure Reading where
  string : List Glyph → String
  number : Number → Key

/-- How JSON reads strings and numbers. -/
def Reading.own : Reading :=
  ⟨fun gs => .ofList (gs.map Glyph.char), Number.key⟩

/-- The value of a scalar. -/
def Reading.scalar (ρ : Reading) : Scalar → Key
  | .null => .null
  | .bool b => .bool b
  | .number n => ρ.number n
  | .string gs => .text (ρ.string gs)

/-- What a sequence of pieces stands for. -/
inductive Meaning where
  | value (v : Value)
  /-- The rest of an array behind an item. -/
  | items (vs : List Value)
  /-- The rest of an object behind a member. -/
  | members (es : List (String × Value))

/-- The mapping that the members of an object make up. -/
def object (es : List (String × Value)) : Value :=
  .ofPairs (es.map fun e => (.text e.1, e.2))

/-- A sequence of pieces stands for something. -/
inductive Encodes (ρ : Reading) : List Piece → Meaning → Prop
  | scalar (g : Gap) (s : Scalar) : Encodes ρ [⟨g, .scalar s⟩] (.value (ρ.scalar s).value)
  | emptyArray (g h : Gap) : Encodes ρ [⟨g, .openArray⟩, ⟨h, .closeArray⟩] (.value (.list []))
  | array (g : Gap) {ps qs : List Piece} {v : Value} {vs : List Value} :
      Encodes ρ ps (.value v) → Encodes ρ qs (.items vs) →
      Encodes ρ (⟨g, .openArray⟩ :: (ps ++ qs)) (.value (.list (v :: vs)))
  | endArray (g : Gap) : Encodes ρ [⟨g, .closeArray⟩] (.items [])
  | item (g : Gap) {ps qs : List Piece} {v : Value} {vs : List Value} :
      Encodes ρ ps (.value v) → Encodes ρ qs (.items vs) →
      Encodes ρ (⟨g, .comma⟩ :: (ps ++ qs)) (.items (v :: vs))
  | emptyObject (g h : Gap) :
      Encodes ρ [⟨g, .openObject⟩, ⟨h, .closeObject⟩] (.value (object []))
  | object (g h : Gap) (gs : List Glyph) (k : Gap) {ps qs : List Piece} {v : Value}
      {es : List (String × Value)} :
      Encodes ρ ps (.value v) → Encodes ρ qs (.members es) →
      Encodes ρ (⟨g, .openObject⟩ :: ⟨h, .name gs k⟩ :: (ps ++ qs))
        (.value (object ((ρ.string gs, v) :: es)))
  | endObject (g : Gap) : Encodes ρ [⟨g, .closeObject⟩] (.members [])
  | member (g h : Gap) (gs : List Glyph) (k : Gap) {ps qs : List Piece} {v : Value}
      {es : List (String × Value)} :
      Encodes ρ ps (.value v) → Encodes ρ qs (.members es) →
      Encodes ρ (⟨g, .comma⟩ :: ⟨h, .name gs k⟩ :: (ps ++ qs))
        (.members ((ρ.string gs, v) :: es))

/-- A JSON text encodes a value. -/
def Text.Encodes (t : Text) (v : Value) : Prop :=
  Json.Encodes .own t.pieces (.value v)

end ModBuild.Json
