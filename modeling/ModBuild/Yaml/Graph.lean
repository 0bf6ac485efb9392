import ModBuild.Yaml.Tag

/-!
# Graphs of nodes

A YAML document is a graph of nodes.  A node can occur in several collections,
since an alias stands for the node itself, and even within itself.  So nodes
have numbers, and collections hold the numbers of their parts.  A node gets its
number when it starts, and it is *finished* when its last part is.  Unless an
alias refers to a node that is not finished, the parts of every collection are
finished before it.
-/

namespace ModBuild.Yaml

/-- What a node holds. -/
inductive Content where
  | scalar (text : String)
  | sequence (items : List Nat)
  /-- A list of pairs of nodes. -/
  | mapping (entries : List (Nat × Nat))
deriving DecidableEq, Repr, Inhabited

/-- A node. -/
structure Node where
  /-- What it is to be read as. -/
  tag : Tag
  content : Content
deriving DecidableEq, Repr, Inhabited

/-- A graph of nodes. -/
structure Graph where
  /-- The nodes by their numbers. -/
  nodes : Array Node
  /-- The number of the node that is the document. -/
  root : Nat
  /-- The numbers of the nodes in the order in which they are finished. -/
  finished : List Nat
  /-- Whether some node occurs within itself. -/
  cyclic : Bool
deriving Repr

end ModBuild.Yaml
