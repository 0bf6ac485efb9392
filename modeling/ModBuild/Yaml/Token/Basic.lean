/-!
# Tokens of YAML

A YAML text is a sequence of tokens.  Where a collection or a key starts is a
token of its own, also where the text shows it by indentation alone.
-/

namespace ModBuild.Yaml

/-- What a directive says. -/
inductive Directive where
  | version (major : Nat)
  /-- A short form for the start of tags. -/
  | tag (handle start : String)
  | other
deriving DecidableEq, Repr

/-- A token. -/
inductive Token where
  /-- The end of the text. -/
  | streamEnd
  | directive (d : Directive)
  /-- The mark for the start of a document. -/
  | documentStart
  /-- The mark for the end of a document. -/
  | documentEnd
  /-- The start of a sequence by indentation. -/
  | blockSequenceStart
  /-- The start of a mapping by indentation. -/
  | blockMappingStart
  /-- The end of a collection by indentation. -/
  | blockEnd
  /-- The start of a sequence in brackets. -/
  | flowSequenceStart
  /-- The end of a sequence in brackets. -/
  | flowSequenceEnd
  /-- The start of a mapping in braces. -/
  | flowMappingStart
  /-- The end of a mapping in braces. -/
  | flowMappingEnd
  /-- The start of a key. -/
  | key
  /-- The start of the value of a key. -/
  | value
  /-- The start of an item by indentation. -/
  | blockEntry
  /-- The start of an item in brackets or braces. -/
  | flowEntry
  /-- A reference to a node. -/
  | alias (name : String)
  /-- A name for a node. -/
  | anchor (name : String)
  /-- The tag of a node, with the handle that stands for its start. -/
  | tag (handle : Option String) (suffix : String)
  /-- A scalar, which is plain if it is neither quoted nor a block. -/
  | scalar (text : String) (plain : Bool)
deriving DecidableEq, Repr

end ModBuild.Yaml
