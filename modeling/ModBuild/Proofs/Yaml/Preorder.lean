import ModBuild.Proofs.Json.Grammar
import ModBuild.Yaml.Graph
import ModBuild.Yaml.Scalar

/-!
# Trees laid out in preorder

The nodes of a document without names are numbered in the order in which they start, and each is
finished behind its parts.  So a part of a document is a run of numbers: its own comes first, and
then those of its parts, one after the other.
-/

namespace ModBuild.Yaml

open Document (Key Value)

/-- What a run of nodes stands for. -/
inductive Part where
  | value (v : Value)
  /-- Some items of a list: the numbers of their nodes and their values. -/
  | items (ns : List Nat) (vs : List Value)
  /-- Some entries of a mapping: the numbers of their nodes, and their keys and values. -/
  | members (es : List (Nat × Nat)) (kvs : List (String × Value))

/-- A run of nodes from some number on, the numbers in the order in which they are finished, the
last first, and what the run stands for. -/
inductive Preorder : Nat → List Node → List Nat → Part → Prop
  | scalar (n : Nat) {tag : Tag} {text : String} {k : Key} : readScalar tag text = .ok k →
      Preorder n [⟨tag, .scalar text⟩] [n] (.value k.value)
  | list {n : Nat} {nodes : List Node} {fs ns : List Nat} {vs : List Value} :
      Preorder (n + 1) nodes fs (.items ns vs) →
      Preorder n (⟨.seq, .sequence ns⟩ :: nodes) (n :: fs) (.value (.list vs))
  | map {n : Nat} {nodes : List Node} {fs : List Nat} {es : List (Nat × Nat)}
      {kvs : List (String × Value)} :
      Preorder (n + 1) nodes fs (.members es kvs) →
      Preorder n (⟨.map, .mapping es⟩ :: nodes) (n :: fs) (.value (Json.object kvs))
  | noItems (n : Nat) : Preorder n [] [] (.items [] [])
  | item {n : Nat} {nodes nodes' : List Node} {fs fs' ns : List Nat} {v : Value}
      {vs : List Value} :
      Preorder n nodes fs (.value v) → Preorder (n + nodes.length) nodes' fs' (.items ns vs) →
      Preorder n (nodes ++ nodes') (fs' ++ fs) (.items (n :: ns) (v :: vs))
  | noMembers (n : Nat) : Preorder n [] [] (.members [] [])
  | member {n : Nat} (key : String) {nodes nodes' : List Node} {fs fs' : List Nat} {v : Value}
      {es : List (Nat × Nat)} {kvs : List (String × Value)} :
      Preorder (n + 1) nodes fs (.value v) →
      Preorder (n + 1 + nodes.length) nodes' fs' (.members es kvs) →
      Preorder n (⟨.str, .scalar key⟩ :: (nodes ++ nodes')) (fs' ++ (fs ++ [n]))
        (.members ((n, n + 1) :: es) ((key, v) :: kvs))

/-! ## Places -/

/-- The numbers of the nodes that a run from some number on is made for. -/
def Part.numbers (n : Nat) : Part → List Nat
  | value _ => [n]
  | items ns _ => ns
  | members es _ => es.flatMap fun e => [e.1, e.2]

/-- The numbers of the keys of a run of entries. -/
def Part.keys : Part → List Nat
  | members es _ => es.map Prod.fst
  | _ => []

/-- Some nodes of a graph stand from some number on. -/
def Placed (N : Array Node) (n : Nat) (nodes : List Node) : Prop :=
  ∀ i node, nodes[i]? = some node → N[n + i]? = some node

variable {N : Array Node} {n : Nat} {node : Node} {nodes nodes' : List Node} {fs : List Nat}
  {part : Part}

theorem Placed.head (h : Placed N n (node :: nodes)) : N[n]? = some node :=
  h 0 node rfl

theorem Placed.tail (h : Placed N n (node :: nodes)) : Placed N (n + 1) nodes := by
  intro i node hi
  rw [Nat.add_assoc, Nat.add_comm 1 i]
  exact h (i + 1) node hi

theorem Placed.left (h : Placed N n (nodes ++ nodes')) : Placed N n nodes := by
  intro i node hi
  exact h i node (List.getElem?_append_left (List.getElem?_eq_some_iff.1 hi).1 ▸ hi)

theorem Placed.right (h : Placed N n (nodes ++ nodes')) : Placed N (n + nodes.length) nodes' := by
  intro i node hi
  rw [Nat.add_assoc]
  refine h (nodes.length + i) node ?_
  rw [List.getElem?_append_right (Nat.le_add_right _ _), Nat.add_sub_cancel_left, hi]

theorem Placed.lt_size (h : Placed N n nodes) {m : Nat} (hm : n ≤ m ∧ m < n + nodes.length) :
    m < N.size := by
  obtain ⟨i, rfl⟩ := Nat.exists_eq_add_of_le hm.1
  have hi : i < nodes.length := Nat.lt_of_add_lt_add_left hm.2
  exact (Array.getElem?_eq_some_iff.1 (h i _ (List.getElem?_eq_getElem hi))).1

/-- The nodes that a run is made for are among its own. -/
theorem Preorder.numbers_mem (h : Preorder n nodes fs part) :
    ∀ m ∈ part.numbers n, n ≤ m ∧ m < n + nodes.length := by
  induction h with
  | scalar | list | map =>
    intro m hm
    obtain rfl := List.mem_singleton.1 hm
    simp
  | noItems | noMembers => exact nofun
  | item hv _ ih ih' =>
    rintro m (_ | ⟨_, hm⟩)
    · have hlt := ih _ (List.mem_singleton_self _)
      rw [List.length_append]
      omega
    · have hlt := ih' m hm
      rw [List.length_append]
      omega
  | member key hv _ ih ih' =>
    rintro m (_ | ⟨_, _ | ⟨_, hm⟩⟩)
    · rw [List.length_cons]
      omega
    · have hlt := ih _ (List.mem_singleton_self _)
      rw [List.length_cons, List.length_append]
      omega
    · have hlt := ih' m hm
      rw [List.length_cons, List.length_append]
      omega

/-- Keys are texts. -/
theorem Preorder.keys_str (h : Preorder n nodes fs part) (hN : Placed N n nodes) :
    ∀ m ∈ part.keys, ∃ key, N[m]? = some ⟨.str, .scalar key⟩ := by
  induction h with
  | scalar | list | map | noItems | item | noMembers => exact nofun
  | member key hv hes ih ih' =>
    rintro m (_ | ⟨_, hm⟩)
    · exact ⟨key, hN.head⟩
    · rw [Nat.add_right_comm] at ih'
      exact ih' (by simpa [Nat.add_right_comm] using hN.tail.right) m hm

end ModBuild.Yaml
