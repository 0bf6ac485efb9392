import ModBuild.Yaml.Graph.Parse
import ModBuild.Yaml.Graph.Value

/-!
# Reading YAML

A text is cut into tokens, the tokens make up a graph of nodes, and the graph has
a value.  A text without a document is the absence of a value.
-/

namespace ModBuild.Yaml

open Document (Value)

/-- The value of a text. -/
def read (text : List Char) : Except Fault Value := do
  let tokens ← Tokens.ofText text
  match ← Graph.ofTokens tokens with
  | none => return .null
  | some g => g.value

end ModBuild.Yaml
