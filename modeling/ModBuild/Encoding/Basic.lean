import ModBuild.Encoding.Point
import ModBuild.Text.Quoted

/-!
# Encodings

Three ways to write code points as octets, and the faults of each.  A fault
names the *span* it covers: where it starts, and over how many items.  Items
are octets when text is read and code points when text is written.
-/

namespace ModBuild.Encoding

/-- A way to write code points as octets. -/
inductive Scheme where
  /-- One to four octets per character, and none for a surrogate. -/
  | utf8
  /-- One octet per character, for the first 256. -/
  | latin1
  /-- One octet per character, for the first 128. -/
  | ascii
deriving DecidableEq, Repr

/-- The name of a scheme in messages. -/
def Scheme.name : Scheme → String
  | .utf8 => "utf-8"
  | .latin1 => "latin-1"
  | .ascii => "ascii"

/-- Why octets are no text. -/
inductive DecodeFault where
  /-- No character starts with this octet. -/
  | badStart
  /-- A character was begun and is not continued by the octet that follows. -/
  | badContinuation
  /-- The octets end inside a character. -/
  | unexpectedEnd
  /-- The octet is not below the limit. -/
  | outOfRange (limit : Nat)
deriving DecidableEq, Repr

/-- Octets that are no text, with the first of them. -/
structure DecodeError where
  /-- The scheme they were read in. -/
  scheme : Scheme
  /-- The position of the first. -/
  start : Nat
  count : Nat
  octet : UInt8
  /-- What is wrong with them. -/
  fault : DecodeFault
deriving DecidableEq, Repr

/-- Code points that a scheme cannot write, with the first of them. -/
structure EncodeError where
  /-- The scheme that cannot write them. -/
  scheme : Scheme
  /-- The position of the first. -/
  start : Nat
  count : Nat
  point : Point
deriving DecidableEq, Repr

/-- The first and last position of a span of several items. -/
def spanText (start count : Nat) : String :=
  toString start ++ "-" ++ toString (start + count - 1)

/-- The wording of a fault. -/
def DecodeFault.reason : DecodeFault → String
  | .badStart => "invalid start byte"
  | .badContinuation => "invalid continuation byte"
  | .unexpectedEnd => "unexpected end of data"
  | .outOfRange limit => "ordinal not in range(" ++ toString limit ++ ")"

/-- The message for octets that are no text. -/
def DecodeError.message (e : DecodeError) : String :=
  "'" ++ e.scheme.name ++ "' codec can't decode " ++
    (if e.count = 1 then
      "byte 0x" ++ .ofList (Text.hexDigits 2 e.octet.toNat) ++ " in position " ++ toString e.start
    else
      "bytes in position " ++ spanText e.start e.count) ++
    ": " ++ e.fault.reason

/-- Why a scheme cannot write a code point. -/
def Scheme.refusal : Scheme → String
  | .utf8 => "surrogates not allowed"
  | .latin1 => "ordinal not in range(256)"
  | .ascii => "ordinal not in range(128)"

/-- The message for code points that a scheme cannot write. -/
def EncodeError.message (e : EncodeError) : String :=
  "'" ++ e.scheme.name ++ "' codec can't encode " ++
    (if e.count = 1 then
      "character '" ++ .ofList (Text.numberEscape e.point.number) ++ "' in position " ++
        toString e.start
    else
      "characters in position " ++ spanText e.start e.count) ++
    ": " ++ e.scheme.refusal

end ModBuild.Encoding
