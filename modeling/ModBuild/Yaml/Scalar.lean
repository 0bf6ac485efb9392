import ModBuild.Document.Value
import ModBuild.Yaml.Scalar.Binary
import ModBuild.Yaml.Scalar.Number
import ModBuild.Yaml.Tag

/-!
# The values of scalars

The value of a scalar comes from its tag and its text.  A value that no
descriptor can use is kept by the text that messages show, so that it can be the
key of a mapping.
-/

namespace ModBuild.Yaml

open Document (Key)

/-- The truth value of a word, in letters of either size. -/
def readBool (text : String) : Except ScalarFault Bool :=
  let word := String.ofList (text.toList.map Char.toLower)
  if word = "yes" ∨ word = "true" ∨ word = "on" then .ok true
  else if word = "no" ∨ word = "false" ∨ word = "off" then .ok false
  else .error (.notBool word)

/-- A scalar fault is a fault. -/
def ofScalarFault {α : Type} : Except ScalarFault α → Except Fault α
  | .ok a => .ok a
  | .error f => .error (.scalar f)

/-- The value of a scalar.  A tag for collections gives no value here. -/
def readScalar (tag : Tag) (text : String) : Except Fault Key :=
  match tag with
  | .str => .ok (.text text)
  | .null => .ok .null
  | .bool => ofScalarFault ((readBool text).map .bool)
  | .int => ofScalarFault ((Number.intOf text).map .int)
  | .float => ofScalarFault ((Number.floatOf text).map fun x => .float x.toBits)
  | .timestamp => ofScalarFault ((Timestamp.ofText text).map fun t => .other t.shown)
  | .binary => (Binary.ofText text).map fun bs => .other (Text.quotedOctets bs)
  | _ => .error .notYaml

example : (readScalar .bool "Yes").toOption = some (.bool true) := by decide +kernel

end ModBuild.Yaml
