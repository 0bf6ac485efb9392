import ModBuild.Yaml.Graph

/-!
# Merged mappings

A mapping can have *merge* keys, whose values are mappings, or lists of mappings,
that it takes the entries of.  The entries that are taken come before its own, so
that its own prevail, and of a list the entries of the last mapping come first.
A mapping that is merged has its own merge keys replaced before.

The key that stands for the whole of a mapping is a text when it stands in a
mapping that is read entry by entry.

Every nested call comes after an entry is removed, so the number of entries
bounds the depth.
-/

namespace ModBuild.Yaml

/-- The nodes of a graph while they change. -/
abbrev Nodes := Array Node

namespace Nodes

/-- The entries of a node, if it is a mapping. -/
def entries? (nodes : Nodes) (n : Nat) : Option (List (Nat × Nat)) :=
  match nodes[n]?.map Node.content with
  | some (.mapping es) => some es
  | _ => none

/-- The items of a node, if it is a list. -/
def items? (nodes : Nodes) (n : Nat) : Option (List Nat) :=
  match nodes[n]?.map Node.content with
  | some (.sequence ns) => some ns
  | _ => none

/-- The number of entries of all nodes. -/
def countEntries (nodes : Nodes) : Nat :=
  nodes.foldl
    (fun count node =>
      match node.content with
      | .mapping es => count + es.length
      | _ => count)
    0

/-- Whether a node has a tag. -/
def hasTag (nodes : Nodes) (tag : Tag) (n : Nat) : Bool :=
  nodes[n]?.any (·.tag == tag)

/-- The nodes with other entries for a mapping. -/
def setEntries (nodes : Nodes) (n : Nat) (es : List (Nat × Nat)) : Nodes :=
  nodes.modify n fun node => { node with content := .mapping es }

/-- The nodes with the keys of some entries made texts where they stand for a
mapping. -/
def plainKeys (nodes : Nodes) (es : List (Nat × Nat)) : Nodes :=
  es.foldl
    (fun nodes e =>
      if nodes.hasTag .value e.1 then
        nodes.modify e.1 fun node => { node with tag := .str }
      else
        nodes)
    nodes

/-- A list of entries cut at the first merge key: what is before, the node to
merge, and what is behind. -/
def cut? (nodes : Nodes) :
    List (Nat × Nat) → Option (List (Nat × Nat) × Nat × List (Nat × Nat))
  | [] => none
  | e :: es =>
    if nodes.hasTag .merge e.1 then
      some ([], e.2, es)
    else
      (nodes.cut? es).map fun (before, n, behind) => (e :: before, n, behind)

/-- Replace the merge keys of a mapping, for which some entries were taken
already. -/
def merge (nodes : Nodes) (n : Nat) (taken : List (Nat × Nat)) :
    (fuel : Nat) → Except Fault Nodes
  | 0 => .error .notYaml
  | fuel + 1 => do
    match nodes.entries? n with
    | none => .error .notYaml
    | some es =>
      match nodes.cut? es with
      | none => return (nodes.plainKeys es).setEntries n (taken ++ es)
      | some (before, source, behind) =>
        let nodes := nodes.setEntries n (before ++ behind)
        match nodes.items? source with
        | none =>
          let nodes ← nodes.merge source [] fuel
          nodes.merge n (taken ++ (nodes.entries? source).getD []) fuel
        | some sources =>
          let (nodes, more) ← sources.foldlM
            (fun (nodes, more) source => do
              let nodes ← nodes.merge source [] fuel
              return (nodes, (nodes.entries? source).getD [] ++ more))
            (nodes, [])
          nodes.merge n (taken ++ more) fuel

end Nodes

end ModBuild.Yaml
