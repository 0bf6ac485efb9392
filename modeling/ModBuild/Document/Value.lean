import ModBuild.Document.Binary64
import ModBuild.Document.Entries

/-!
# Document values

What a descriptor document holds, whatever syntax it was read from.  The keys
of a mapping are mostly texts, and may be any value that has no parts.  A value
that no descriptor can use, such as a date or a run of octets, is `other`.

Keys are a type of their own, so that two keys can be compared without a
comparison of values.
-/

namespace ModBuild.Document

/-- A key of a mapping. -/
inductive Key where
  | text (s : String)
  /-- The absence of a key. -/
  | null
  | bool (b : Bool)
  | int (n : Int)
  /-- A floating-point number, by its bits. -/
  | float (bits : UInt64)
  /-- Anything else, by the text that messages show. -/
  | other (shown : String)
deriving DecidableEq, Repr, Inhabited

/-- A value of a document. -/
inductive Value where
  | text (s : String)
  /-- The absence of a value. -/
  | null
  | bool (b : Bool)
  | int (n : Int)
  /-- A floating-point number, by its bits. -/
  | float (bits : UInt64)
  /-- Anything else that has no parts of interest. -/
  | other
  | list (items : List Value)
  /-- A mapping, in the order of its entries. -/
  | map (entries : List (Key × Value))
deriving Repr, Inhabited

/-- A key as messages show it. -/
def Key.shown : Key → String
  | .text s => s
  | .null => "None"
  | .bool true => "True"
  | .bool false => "False"
  | .int n => (if n < 0 then "-" else "") ++ Text.decimal n.natAbs
  | .float bits => Binary64.text bits
  | .other shown => shown

/-- A key as a value. -/
def Key.value : Key → Value
  | .text s => .text s
  | .null => .null
  | .bool b => .bool b
  | .int n => .int n
  | .float bits => .float bits
  | .other _ => .other

/-- The text that a value is, if it is one. -/
def Value.text? : Value → Option String
  | .text s => some s
  | _ => none

/-- The mapping that a value is, if it is one. -/
def Value.entries? : Value → Option (List (Key × Value))
  | .map es => some es
  | _ => none

/-- The list that a value is, if it is one. -/
def Value.items? : Value → Option (List Value)
  | .list vs => some vs
  | _ => none

/-- The mapping of some pairs, in which a key that is repeated keeps its first
place and its last value. -/
def Value.ofPairs (pairs : List (Key × Value)) : Value :=
  .map (Entries.ofPairs pairs)

end ModBuild.Document
