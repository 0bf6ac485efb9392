import ModBuild.Text.Digit
import ModBuild.Text.Quoted

/-!
# Faults of a YAML text

A text that is no YAML document has a syntax fault.  The wording of its cause
is no part of this library, and the text `detail` stands for it.  Apart from
that, a scalar can have a tag that asks for a value which its text does not
give.
-/

namespace ModBuild.Yaml

/-- What stands for the cause of a syntax fault in messages. -/
def detail : String := "<detail>"

/-- Why a scalar has no value. -/
inductive ScalarFault where
  /-- The text is no whole number in a base. -/
  | notInteger (base : Nat) (text : String)
  /-- The text is no floating-point number. -/
  | notReal (text : String)
  /-- The text is no truth value. -/
  | notBool (text : String)
  /-- The text of a number is empty. -/
  | emptyNumber
  /-- The text of a number in base sixty has too many places. -/
  | tooManyPlaces
  /-- The text is no date. -/
  | notDate
  /-- The date is the value of a mapping. -/
  | mappedDate
  /-- There is no such year. -/
  | year (n : Nat)
  /-- There is no such month. -/
  | month
  /-- The month has no such day. -/
  | day
  /-- There is no such hour. -/
  | hour
  /-- There is no such minute. -/
  | minute
  /-- There is no such second. -/
  | second
  /-- The offset from universal time is a day or more, in seconds. -/
  | offset (seconds : Int)
  /-- No character has this number. -/
  | character
  /-- The number of a character takes more than 31 bits. -/
  | characterSize
deriving DecidableEq, Repr

/-- What kind of value a scalar fault is about. -/
inductive ScalarFault.Kind where
  /-- A value that is out of range. -/
  | value
  /-- A word that is in no list of words. -/
  | key
  /-- A text that is too short. -/
  | index
  /-- A text of the wrong form. -/
  | attribute
  /-- A number that is too large. -/
  | overflow
  /-- Something that is no text. -/
  | type
deriving DecidableEq, Repr

/-- The kind of a scalar fault. -/
def ScalarFault.kind : ScalarFault → Kind
  | .notBool _ => .key
  | .emptyNumber => .index
  | .notDate => .attribute
  | .characterSize | .tooManyPlaces => .overflow
  | .mappedDate => .type
  | _ => .value

/-- A span of time in whole days and seconds of the last, in messages. -/
def spanText (seconds : Int) : String :=
  let days := seconds.fdiv 86400
  let rest := seconds.fmod 86400
  let part (name : String) (n : Int) : List String :=
    if n = 0 then [] else [name ++ "=" ++ toString n]
  let parts := part "days" days ++ part "seconds" rest
  "datetime.timedelta(" ++ (if parts = [] then "0" else ", ".intercalate parts) ++ ")"

/-- The message of a scalar fault, which shows at most the first 200 characters
of what should have been a whole number. -/
def ScalarFault.message : ScalarFault → String
  | .notInteger base text =>
    "invalid literal for int() with base " ++ Text.decimal base ++ ": " ++
      .ofList ((Text.quoteChars text.toList).take 200)
  | .notReal text => "could not convert string to float: " ++ Text.quoted text
  | .notBool text => Text.quoted text
  | .emptyNumber => "string index out of range"
  | .tooManyPlaces => "int too large to convert to float"
  | .mappedDate => "expected string or bytes-like object, got 'list'"
  | .notDate => "'NoneType' object has no attribute 'groupdict'"
  | .year n => "year " ++ Text.decimal n ++ " is out of range"
  | .month => "month must be in 1..12"
  | .day => "day is out of range for month"
  | .hour => "hour must be in 0..23"
  | .minute => "minute must be in 0..59"
  | .second => "second must be in 0..59"
  | .offset seconds =>
    "offset must be a timedelta strictly between -timedelta(hours=24) and " ++
      "timedelta(hours=24), not " ++ spanText seconds ++ "."
  | .character => "chr() arg not in range(0x110000)"
  | .characterSize => "Python int too large to convert to C int"

/-- Why a text gives no document. -/
inductive Fault where
  /-- It is no YAML document. -/
  | notYaml
  /-- A scalar has no value. -/
  | scalar (fault : ScalarFault)
deriving DecidableEq, Repr

end ModBuild.Yaml
