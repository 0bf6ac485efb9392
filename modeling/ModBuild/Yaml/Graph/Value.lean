import ModBuild.Yaml.Graph.Merge
import ModBuild.Yaml.Scalar

/-!
# The value of a graph

The nodes of a graph are given their kinds from the root on, level by level.  The
value of a scalar is read when it is first met.  A collection is put at the end
of a queue, and its parts are looked at when its turn comes.  So of several
faults the one that is found first is on the highest level.

Then the values are put together, in the order in which the nodes are finished,
so that the values of its parts are there when a collection is made.  In a graph
with a node that occurs within itself there is no such order.  Its values are
put together over and over, which unfolds it level by level, and the unfolding
stops below every level that a descriptor has.
-/

namespace ModBuild.Yaml

open Document (Key Value)

/-- What a node was found to be. -/
inductive Found where
  | scalar (key : Key)
  | list
  | pairs
  | map
  | set
deriving Repr

/-- The state of looking at nodes. -/
structure Visit where
  nodes : Nodes
  /-- What the nodes were found to be. -/
  found : Array (Option Found)
  /-- The collections that wait, the last first. -/
  queue : List Nat

namespace Visit

/-- A step of looking at nodes. -/
abbrev Step := StateT Visit (Except Fault)

/-- The text of a scalar.  A mapping with a key that stands for it has the text
of the value of that key. -/
def text (nodes : Nodes) (n : Nat) : (fuel : Nat) → Except Fault String
  | 0 => .error .notYaml
  | fuel + 1 =>
    match nodes[n]?.map Node.content with
    | some (.scalar text) => .ok text
    | some (.mapping es) =>
      match es.find? fun e => nodes.hasTag .value e.1 with
      | some e => text nodes e.2 fuel
      | none => .error .notYaml
    | _ => .error .notYaml

/-- The value of a scalar node.  A date must be written as a scalar. -/
def readKey (nodes : Nodes) (n : Nat) (tag : Tag) : Except Fault Key := do
  let text ← text nodes n (nodes.size + 1)
  if tag = .timestamp ∧ (nodes.entries? n).isSome then
    .error (.scalar .mappedDate)
  else
    readScalar tag text

/-- Note what a node was found to be. -/
def note (n : Nat) (f : Found) : Step Unit :=
  modify fun v => { v with found := v.found.set! n (some f) }

/-- Note that a node was found to be a collection, which has to wait. -/
def enqueue (n : Nat) (f : Found) : Step Unit := do
  note n f
  modify fun v => { v with queue := n :: v.queue }

/-- Look at a node, unless that was done before. -/
def look (n : Nat) : Step Unit := do
  let v ← get
  match v.found[n]?.join with
  | some _ => return ()
  | none =>
    match v.nodes[n]?.map Node.tag with
    | some .seq => enqueue n .list
    | some .map => enqueue n .map
    | some .set => enqueue n .set
    | some .pairs => enqueue n .pairs
    | some tag => note n (.scalar (← readKey v.nodes n tag))
    | none => throw .notYaml

/-- Look at an entry.  Only a scalar can be a key. -/
def lookEntry (e : Nat × Nat) : Step Unit := do
  look e.1
  match (← get).found[e.1]?.join with
  | some (.scalar _) => look e.2
  | _ => throw .notYaml

/-- Look at a pair in a list of pairs, which is a mapping with one entry. -/
def lookPair (n : Nat) : Step Unit := do
  match (← get).nodes.entries? n with
  | some [e] =>
    look e.1
    look e.2
  | _ => throw .notYaml

/-- Look at the items of a list. -/
def lookItems (n : Nat) (lookItem : Nat → Step Unit) : Step Unit := do
  match (← get).nodes.items? n with
  | some ns => ns.forM lookItem
  | none => throw .notYaml

/-- Look at the parts of a collection. -/
def lookParts (n : Nat) : Step Unit := do
  let v ← get
  match v.found[n]?.join with
  | some .list => lookItems n look
  | some .pairs => lookItems n lookPair
  | _ =>
    let nodes ← v.nodes.merge n [] (v.nodes.countEntries + 2)
    set { v with nodes := nodes }
    ((nodes.entries? n).getD []).forM lookEntry

/-- Look at the collections that wait, the first come first, and at those that
come to wait meanwhile. -/
def run : (fuel : Nat) → Step Unit
  | 0 => pure ()
  | fuel + 1 => do
    let v ← get
    set { v with queue := [] }
    v.queue.reverse.forM lookParts
    run fuel

end Visit

/-- The key that a node is. -/
def Visit.key (v : Visit) (n : Nat) : Key :=
  match v.found[n]?.join with
  | some (.scalar k) => k
  | _ => .null

/-- The value of a node, given the values of others. -/
def Visit.value (v : Visit) (values : Array Value) (n : Nat) : Value :=
  let part (n : Nat) : Value := values[n]?.getD .other
  match v.found[n]?.join with
  | some (.scalar k) => k.value
  | some .list => .list (((v.nodes.items? n).getD []).map part)
  | some .pairs => .list (((v.nodes.items? n).getD []).map fun _ => .other)
  | some .map =>
    .ofPairs (((v.nodes.entries? n).getD []).map fun e => (v.key e.1, part e.2))
  | some .set => .other
  | none => .other

/-- The values of some nodes, one after the other. -/
def Visit.values (v : Visit) (values : Array Value) (ns : List Nat) : Array Value :=
  ns.foldl (fun values n => values.set! n (v.value values n)) values

/-- The number of levels to which a graph that has no last one is unfolded. -/
def unfolding : Nat := 8

/-- The value of a graph. -/
def Graph.value (g : Graph) : Except Fault Value := do
  let start : Visit := ⟨g.nodes, Array.replicate g.nodes.size none, []⟩
  let look : Visit.Step Unit := do
    Visit.look g.root
    Visit.run (g.nodes.size + 1)
  let (_, v) ← look.run start
  let rounds := if g.cyclic then unfolding else 1
  let values := (List.range rounds).foldl
    (fun values _ => v.values values g.finished) (Array.replicate g.nodes.size .other)
  return values[g.root]?.getD .other

end ModBuild.Yaml
