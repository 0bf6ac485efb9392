import ModBuild.Proofs.Yaml.Preorder
import ModBuild.Proofs.Yaml.Step
import ModBuild.Yaml.Graph.Value

/-!
# Looking at the nodes of a tidy graph

A graph is *tidy* if the parts of every collection come behind it and the keys are texts.  Its
nodes are all found to be what they are, level by level, from the root on.
-/

namespace ModBuild.Yaml

open Document (Key)

/-! ## Nodes -/

/-- What a node is to be found to be. -/
inductive Kind : Node → Found → Prop
  | scalar {tag : Tag} {text : String} {k : Key} : readScalar tag text = .ok k →
      Kind ⟨tag, .scalar text⟩ (.scalar k)
  | list (ns : List Nat) : Kind ⟨.seq, .sequence ns⟩ .list
  | map (es : List (Nat × Nat)) : Kind ⟨.map, .mapping es⟩ .map

/-- The numbers of the parts of a node. -/
def Node.parts (node : Node) : List Nat :=
  match node.content with
  | .scalar _ => []
  | .sequence ns => ns
  | .mapping es => es.flatMap fun e => [e.1, e.2]

/-- A node of a graph is tidy. -/
inductive Tidy (N : Nodes) (n : Nat) : Node → Prop
  | scalar {tag : Tag} {text : String} {k : Key} : readScalar tag text = .ok k →
      Tidy N n ⟨tag, .scalar text⟩
  | list {ns : List Nat} : (∀ m ∈ ns, n < m ∧ m < N.size) → Tidy N n ⟨.seq, .sequence ns⟩
  | map {es : List (Nat × Nat)} :
      (∀ e ∈ es, n < e.1 ∧ (∃ key, N[e.1]? = some ⟨.str, .scalar key⟩) ∧ n < e.2 ∧ e.2 < N.size) →
      Tidy N n ⟨.map, .mapping es⟩

/-- All nodes of a graph are tidy. -/
def Nodes.Tidy (N : Nodes) : Prop :=
  ∀ n node, N[n]? = some node → Yaml.Tidy N n node

variable {N : Nodes} {n : Nat}

theorem Preorder.tidy {nodes : List Node} {fs : List Nat} {part : Part}
    (h : Preorder n nodes fs part) (hN : Placed N n nodes) :
    ∀ i, n ≤ i → i < n + nodes.length → ∃ node, N[i]? = some node ∧ Yaml.Tidy N i node := by
  induction h with
  | scalar n hread =>
    intro i hle hlt
    obtain rfl : n = i := Nat.le_antisymm hle (Nat.le_of_lt_succ hlt)
    exact ⟨_, hN.head, .scalar hread⟩
  | list hitems ih =>
    intro i hle hlt
    rw [List.length_cons] at hlt
    rcases Nat.eq_or_lt_of_le hle with rfl | hle'
    · refine ⟨_, hN.head, .list fun m hm => ?_⟩
      have hmem := hitems.numbers_mem m hm
      exact ⟨hmem.1, hN.tail.lt_size hmem⟩
    · exact ih hN.tail i hle' (by omega)
  | map hmembers ih =>
    intro i hle hlt
    rw [List.length_cons] at hlt
    rcases Nat.eq_or_lt_of_le hle with rfl | hle'
    · refine ⟨_, hN.head, .map fun e he => ?_⟩
      have hkey := hmembers.numbers_mem e.1 (List.mem_flatMap.2 ⟨e, he, by simp⟩)
      have hvalue := hmembers.numbers_mem e.2 (List.mem_flatMap.2 ⟨e, he, by simp⟩)
      exact ⟨hkey.1, hmembers.keys_str hN.tail e.1 (List.mem_map_of_mem he), hvalue.1,
        hN.tail.lt_size hvalue⟩
    · exact ih hN.tail i hle' (by omega)
  | noItems | noMembers => exact fun i hle hlt => absurd hlt (Nat.not_lt.2 hle)
  | @item n nodes nodes' _ _ _ _ _ hv hvs ih ih' =>
    intro i hle hlt
    rw [List.length_append] at hlt
    by_cases hi : i < n + nodes.length
    · exact ih hN.left i hle hi
    · exact ih' hN.right i (by omega) (by omega)
  | @member n key nodes nodes' _ _ _ _ _ hv hes ih ih' =>
    intro i hle hlt
    rw [List.length_cons, List.length_append] at hlt
    rcases Nat.eq_or_lt_of_le hle with rfl | hle'
    · exact ⟨_, hN.head, .scalar rfl⟩
    · by_cases hi : i < n + 1 + nodes.length
      · exact ih hN.tail.left i hle' hi
      · exact ih' hN.tail.right i (by omega) (by omega)

/-! ## Merging -/

theorem Nodes.hasTag_key {tag : Tag} (htag : tag ≠ .str)
    (h : ∃ key, N[n]? = some ⟨.str, .scalar key⟩) : N.hasTag tag n = false := by
  obtain ⟨key, hn⟩ := h
  rw [hasTag, hn, Option.any_some, beq_eq_false_iff_ne]
  exact htag.symm

theorem Nodes.cut?_keys {es : List (Nat × Nat)}
    (h : ∀ e ∈ es, ∃ key, N[e.1]? = some ⟨.str, .scalar key⟩) : N.cut? es = none := by
  induction es with
  | nil => rfl
  | cons e es ih =>
    have hmerge : N.hasTag .merge e.1 = false := hasTag_key nofun (h e List.mem_cons_self)
    rw [cut?, hmerge, ih fun e' he => h e' (List.mem_cons_of_mem e he)]
    rfl

theorem Nodes.plainKeys_keys {es : List (Nat × Nat)}
    (h : ∀ e ∈ es, ∃ key, N[e.1]? = some ⟨.str, .scalar key⟩) : N.plainKeys es = N := by
  induction es with
  | nil => rfl
  | cons e es ih =>
    have hvalue : N.hasTag .value e.1 = false := hasTag_key nofun (h e List.mem_cons_self)
    rw [plainKeys, List.foldl_cons, hvalue]
    exact ih fun e' he => h e' (List.mem_cons_of_mem e he)

/-- Where no key is a merge key there is nothing to merge. -/
theorem Nodes.merge_keys {es : List (Nat × Nat)} (hn : N[n]? = some ⟨.map, .mapping es⟩)
    (h : ∀ e ∈ es, ∃ key, N[e.1]? = some ⟨.str, .scalar key⟩) (fuel : Nat) :
    N.merge n [] (fuel + 1) = .ok N := by
  have hentries : N.entries? n = some es := by
    rw [entries?, hn]
    rfl
  have hset : N.setEntries n es = N := by
    apply Array.ext_getElem?
    intro i
    rw [setEntries, Array.getElem?_modify]
    split
    · next hi => rw [← hi, hn]; rfl
    · rfl
  rw [merge]
  simp only [hentries, cut?_keys h, plainKeys_keys h, List.nil_append, hset]
  rfl

/-! ## Steps of looking at nodes -/

namespace Visit

variable {v v' v'' : Visit} {k : Nat}

/-- A node was looked at. -/
def Seen (v : Visit) (n : Nat) : Prop :=
  ∃ f, v.found[n]?.join = some f

/-- All parts of a node were looked at. -/
def Closed (N : Nodes) (n : Nat) (v : Visit) : Prop :=
  ∀ node, N[n]? = some node → ∀ m ∈ node.parts, v.Seen m

/-- A node is to be found to be a collection. -/
def Collects (N : Nodes) (n : Nat) : Prop :=
  (∃ ns, N[n]? = some ⟨.seq, .sequence ns⟩) ∨ ∃ es, N[n]? = some ⟨.map, .mapping es⟩

/-- Nodes were found to be what they are, and collections wait. -/
structure Sound (N : Nodes) (v : Visit) : Prop where
  nodes : v.nodes = N
  size : v.found.size = N.size
  kind : ∀ (n : Nat) f, v.found[n]?.join = some f → ∃ node : Node, N[n]? = some node ∧ Kind node f
  waits : ∀ n ∈ v.queue, v.Seen n ∧ Collects N n

/-- More nodes were looked at.  Those that were not before wait, and have some number at least, or
have no parts. -/
structure Grows (N : Nodes) (k : Nat) (v v' : Visit) : Prop where
  seen : ∀ n, v.Seen n → v'.Seen n
  queue : ∀ n ∈ v.queue, n ∈ v'.queue
  fresh : ∀ n, v'.Seen n → v.Seen n ∨ n ∈ v'.queue ∨ Closed N n v'
  bound : ∀ n ∈ v'.queue, n ∈ v.queue ∨ k ≤ n

theorem Closed.grows (h : Closed N n v) (hg : Grows N k v v') : Closed N n v' :=
  fun node hn m hm => hg.seen m (h node hn m hm)

theorem Grows.refl (N : Nodes) (k : Nat) (v : Visit) : Grows N k v v :=
  ⟨fun _ => id, fun _ => id, fun _ => Or.inl, fun _ => Or.inl⟩

theorem Grows.trans (h : Grows N k v v') (h' : Grows N k v' v'') : Grows N k v v'' where
  seen n hn := h'.seen n (h.seen n hn)
  queue n hn := h'.queue n (h.queue n hn)
  fresh n hn := by
    rcases h'.fresh n hn with hn' | hwait
    · rcases h.fresh n hn' with hseen | hqueue | hclosed
      · exact Or.inl hseen
      · exact Or.inr (Or.inl (h'.queue n hqueue))
      · exact Or.inr (Or.inr (hclosed.grows h'))
    · exact Or.inr hwait
  bound n hn := by
    rcases h'.bound n hn with hn' | hle
    · exact h.bound n hn'
    · exact Or.inr hle

/-- The state behind a note what a node was found to be. -/
def noted (v : Visit) (n : Nat) (f : Found) : Visit :=
  { v with found := v.found.set! n (some f) }

theorem found_noted (hn : n < v.found.size) (f : Found) (m : Nat) :
    (v.noted n f).found[m]?.join = if n = m then some f else v.found[m]?.join := by
  rw [noted, Array.set!_eq_setIfInBounds, Array.getElem?_setIfInBounds]
  split
  · rfl
  · rfl

theorem seen_noted (hn : n < v.found.size) (f : Found) (m : Nat) :
    (v.noted n f).Seen m ↔ m = n ∨ v.Seen m := by
  rw [Seen, found_noted hn]
  split
  · next hm => exact ⟨fun _ => Or.inl hm.symm, fun _ => ⟨f, rfl⟩⟩
  · next hm => exact ⟨Or.inr, fun h => h.resolve_left (Ne.symm hm)⟩

theorem Sound.lt_size (h : Sound N v) {node : Node} (hn : N[n]? = some node) :
    n < v.found.size :=
  h.size.symm ▸ (Array.getElem?_eq_some_iff.1 hn).1

theorem Sound.noted (h : Sound N v) {node : Node} {f : Found} (hn : N[n]? = some node)
    (hf : Kind node f) : Sound N (v.noted n f) where
  nodes := h.nodes
  size := by rw [Visit.noted, Array.set!_eq_setIfInBounds, Array.size_setIfInBounds, h.size]
  kind m g hm := by
    rw [found_noted (h.lt_size hn)] at hm
    split at hm
    · next hm' =>
      obtain rfl := Option.some.inj hm
      exact ⟨node, hm' ▸ hn, hf⟩
    · exact h.kind m g hm
  waits m hm := ⟨(seen_noted (h.lt_size hn) f m).2 (Or.inr (h.waits m hm).1), (h.waits m hm).2⟩

/-- Looking at a node that is a collection lets it wait. -/
theorem Sound.enqueued (h : Sound N v) {node : Node} {f : Found} (hn : N[n]? = some node)
    (hf : Kind node f) (hcollects : Collects N n) :
    Sound N { v.noted n f with queue := n :: v.queue } where
  nodes := h.nodes
  size := (h.noted hn hf).size
  kind := (h.noted hn hf).kind
  waits m hm := by
    rcases List.mem_cons.1 hm with rfl | hm
    · exact ⟨(seen_noted (h.lt_size hn) f m).2 (Or.inl rfl), hcollects⟩
    · exact (h.noted hn hf).waits m hm

theorem readKey_scalar {tag : Tag} {text : String} (hn : N[n]? = some ⟨tag, .scalar text⟩) :
    readKey N n tag = readScalar tag text := by
  have htext : Visit.text N n (N.size + 1) = .ok text := by
    rw [Visit.text, hn]
    rfl
  have hentries : N.entries? n = none := by
    rw [Nodes.entries?, hn]
    rfl
  rw [readKey, htext, hentries]
  exact if_neg fun h => nomatch h.2

theorem grows_noted (hn : n < v.found.size) {f : Found} (hclosed : Closed N n (v.noted n f)) :
    Grows N k v (v.noted n f) where
  seen m hm := (seen_noted hn f m).2 (Or.inr hm)
  queue _ hm := hm
  fresh m hm := by
    rcases (seen_noted hn f m).1 hm with rfl | hm
    · exact Or.inr (Or.inr hclosed)
    · exact Or.inl hm
  bound _ hm := Or.inl hm

theorem grows_enqueued (hn : n < v.found.size) (f : Found) (hk : k ≤ n) :
    Grows N k v { v.noted n f with queue := n :: v.queue } where
  seen m hm := (seen_noted hn f m).2 (Or.inr hm)
  queue _ hm := List.mem_cons_of_mem n hm
  fresh m hm := by
    rcases (seen_noted hn f m).1 hm with rfl | hm
    · exact Or.inr (Or.inl List.mem_cons_self)
    · exact Or.inl hm
  bound m hm := by
    rcases List.mem_cons.1 hm with rfl | hm
    · exact Or.inr hk
    · exact Or.inl hm

theorem tag_of_readScalar {tag : Tag} {text : String} {key : Key}
    (h : readScalar tag text = .ok key) :
    tag ≠ .seq ∧ tag ≠ .map ∧ tag ≠ .set ∧ tag ≠ .pairs := by
  refine ⟨?_, ?_, ?_, ?_⟩ <;> (rintro rfl; cases h)

theorem run_look_scalar {tag : Tag} {text : String} {key : Key} (h : v.nodes = N)
    (hnone : v.found[n]?.join = none) (hn : N[n]? = some ⟨tag, .scalar text⟩)
    (hread : readScalar tag text = .ok key) :
    (look n).run v = .ok ((), v.noted n (.scalar key)) := by
  obtain ⟨hseq, hmap, hset, hpairs⟩ := tag_of_readScalar hread
  rw [look, run_bind_ok run_get, hnone, h, hn, Option.map_some]
  simp only
  rw [readKey_scalar hn, hread]
  rfl

/-- Looking at a tidy node finds it to be what it is. -/
theorem look_tidy {node : Node} (hn : N[n]? = some node) (htidy : Yaml.Tidy N n node) (hk : k ≤ n)
    (h : Sound N v) :
    Succeeds (look n) v fun v' => Sound N v' ∧ Grows N k v v' ∧ v'.Seen n := by
  by_cases hseen : v.Seen n
  · obtain ⟨f, hf⟩ := hseen
    refine ⟨v, ?_, h, .refl N k v, f, hf⟩
    rw [look, run_bind_ok run_get, hf]
    rfl
  · have hnone : v.found[n]?.join = none := by
      rw [Option.eq_none_iff_forall_ne_some]
      exact fun f hf => hseen ⟨f, hf⟩
    have hlt := h.lt_size hn
    cases htidy with
    | @scalar tag text key hread =>
      have hclosed : Closed N n (v.noted n (.scalar key)) := by
        intro node hnode
        obtain rfl := Option.some.inj (hn.symm.trans hnode)
        exact nofun
      exact ⟨_, run_look_scalar h.nodes hnone hn hread, h.noted hn (.scalar hread),
        grows_noted hlt hclosed, (seen_noted hlt _ n).2 (Or.inl rfl)⟩
    | @list ns hns =>
      refine ⟨_, ?_, h.enqueued hn (.list ns) (Or.inl ⟨ns, hn⟩), grows_enqueued hlt _ hk,
        (seen_noted hlt _ n).2 (Or.inl rfl)⟩
      rw [look, run_bind_ok run_get, hnone, h.nodes, hn]
      rfl
    | @map es hes =>
      refine ⟨_, ?_, h.enqueued hn (.map es) (Or.inr ⟨es, hn⟩), grows_enqueued hlt _ hk,
        (seen_noted hlt _ n).2 (Or.inl rfl)⟩
      rw [look, run_bind_ok run_get, hnone, h.nodes, hn]
      rfl

theorem look_lt (hN : N.Tidy) (hn : n < N.size) (hk : k ≤ n) (h : Sound N v) :
    Succeeds (look n) v fun v' => Sound N v' ∧ Grows N k v v' ∧ v'.Seen n :=
  have hnode : N[n]? = some N[n] := Array.getElem?_eq_getElem hn
  look_tidy hnode (hN n _ hnode) hk h

theorem lookEntry_tidy (hN : N.Tidy) {e : Nat × Nat}
    (hkey : ∃ key, N[e.1]? = some ⟨.str, .scalar key⟩) (hvalue : e.2 < N.size) (hk : k ≤ e.1)
    (hk' : k ≤ e.2) (h : Sound N v) :
    Succeeds (lookEntry e) v fun v' =>
      Sound N v' ∧ Grows N k v v' ∧ v'.Seen e.1 ∧ v'.Seen e.2 := by
  obtain ⟨key, hnode⟩ := hkey
  refine Succeeds.bind (look_tidy hnode (hN e.1 _ hnode) hk h) ?_
  rintro v₁ ⟨h₁, hgrows, f, hf⟩
  obtain ⟨node, hnode', hkind⟩ := h₁.kind e.1 f hf
  obtain rfl := Option.some.inj (hnode.symm.trans hnode')
  cases hkind with
  | scalar hread =>
    obtain ⟨v₂, hrun, h₂, hgrows', hseen⟩ := look_lt hN hvalue hk' h₁
    refine ⟨v₂, ?_, h₂, hgrows.trans hgrows', hgrows'.seen e.1 ⟨_, hf⟩, hseen⟩
    rw [run_bind_ok run_get, hf]
    exact hrun

theorem lookParts_list (hN : N.Tidy) {ns : List Nat} (hn : N[n]? = some ⟨.seq, .sequence ns⟩)
    (hk : k ≤ n + 1) (hseen : v.Seen n) (h : Sound N v) :
    Succeeds (lookParts n) v fun v' => Sound N v' ∧ Grows N k v v' ∧ Closed N n v' := by
  obtain ⟨f, hf⟩ := hseen
  obtain ⟨node, hnode, hkind⟩ := h.kind n f hf
  obtain rfl := Option.some.inj (hn.symm.trans hnode)
  have hitems : N.items? n = some ns := by
    rw [Nodes.items?, hn]
    rfl
  cases hkind
  have hrun : (lookParts n).run v = (ns.forM look).run v := by
    rw [lookParts, run_bind_ok run_get, hf]
    refine (run_bind_ok run_get).trans ?_
    rw [h.nodes, hitems]
  cases hN n _ hn with
  | list hns =>
    have hlook : ∀ m ∈ ns, ∀ v, Sound N v →
        Succeeds (look m) v fun v' => Sound N v' ∧ Grows N k v v' ∧ v'.Seen m :=
      fun m hm v hv => look_lt hN (hns m hm).2 (Nat.le_trans hk (hns m hm).1) hv
    refine Succeeds.congr (Succeeds.mono (Succeeds.forM (.refl N k) .trans
      (fun hg hs => hg.seen _ hs) hlook h) ?_) hrun
    rintro v' ⟨hsound, hgrows, hall⟩
    refine ⟨hsound, hgrows, fun node hnode => ?_⟩
    obtain rfl := Option.some.inj (hn.symm.trans hnode)
    exact hall

theorem lookParts_map (hN : N.Tidy) {es : List (Nat × Nat)}
    (hn : N[n]? = some ⟨.map, .mapping es⟩)
    (hk : k ≤ n + 1) (hseen : v.Seen n) (h : Sound N v) :
    Succeeds (lookParts n) v fun v' => Sound N v' ∧ Grows N k v v' ∧ Closed N n v' := by
  obtain ⟨f, hf⟩ := hseen
  obtain ⟨node, hnode, hkind⟩ := h.kind n f hf
  obtain rfl := Option.some.inj (hn.symm.trans hnode)
  have hentries : N.entries? n = some es := by
    rw [Nodes.entries?, hn]
    rfl
  cases hkind
  cases hN n _ hn with
  | map hes =>
    have hrun : (lookParts n).run v = (es.forM lookEntry).run v := by
      have hmerge := Nodes.merge_keys hn (fun e he => (hes e he).2.1) (N.countEntries + 1)
      obtain ⟨nodes, found, queue⟩ := v
      obtain rfl : nodes = N := h.nodes
      rw [lookParts, run_bind_ok run_get, hf]
      simp only
      rw [hmerge]
      refine (run_bind_ok rfl).trans ?_
      refine (run_bind_ok rfl).trans ?_
      rw [hentries]
      rfl
    have hlook : ∀ e ∈ es, ∀ v, Sound N v → Succeeds (lookEntry e) v fun v' =>
        Sound N v' ∧ Grows N k v v' ∧ v'.Seen e.1 ∧ v'.Seen e.2 := by
      intro e he v hv
      obtain ⟨hlt, hkey, hlt', hsize⟩ := hes e he
      exact lookEntry_tidy hN hkey hsize (Nat.le_trans hk hlt) (Nat.le_trans hk hlt') hv
    refine Succeeds.congr (Succeeds.mono (Succeeds.forM (.refl N k) .trans
      (fun hg hs => ⟨hg.seen _ hs.1, hg.seen _ hs.2⟩) hlook h) ?_) hrun
    rintro v' ⟨hsound, hgrows, hall⟩
    refine ⟨hsound, hgrows, fun node hnode m hm => ?_⟩
    obtain rfl := Option.some.inj (hn.symm.trans hnode)
    obtain ⟨e, he, hm⟩ := List.mem_flatMap.1 hm
    simp only [List.mem_cons, List.not_mem_nil, or_false] at hm
    rcases hm with rfl | rfl
    · exact (hall e he).1
    · exact (hall e he).2

/-- Looking at the parts of a collection finds them to be what they are. -/
theorem lookParts_tidy (hN : N.Tidy) (hcollects : Collects N n) (hk : k ≤ n + 1)
    (hseen : v.Seen n) (h : Sound N v) :
    Succeeds (lookParts n) v fun v' => Sound N v' ∧ Grows N k v v' ∧ Closed N n v' := by
  rcases hcollects with ⟨ns, hn⟩ | ⟨es, hn⟩
  · exact lookParts_list hN hn hk hseen h
  · exact lookParts_map hN hn hk hseen h

/-! ## Levels -/

/-- Every node that was looked at waits, or all its parts were looked at too. -/
def Settled (N : Nodes) (v : Visit) : Prop :=
  ∀ n, v.Seen n → n ∈ v.queue ∨ Closed N n v

/-- When the collections that wait have had their turn, only such wait as come behind them. -/
theorem level_tidy (hN : N.Tidy) (h : Sound N v) (hsettled : Settled N v)
    (hk : ∀ n ∈ v.queue, k ≤ n) :
    Succeeds (v.queue.reverse.forM lookParts) { v with queue := [] } fun v' =>
      Sound N v' ∧ Settled N v' ∧ (∀ n ∈ v'.queue, k + 1 ≤ n) ∧ ∀ n, v.Seen n → v'.Seen n := by
  have hemptied : Sound N { v with queue := [] } := ⟨h.nodes, h.size, h.kind, nofun⟩
  have hparts : ∀ n ∈ v.queue.reverse, ∀ v₁, Sound N v₁ ∧ Grows N (k + 1) { v with queue := [] } v₁ →
      Succeeds (lookParts n) v₁ fun v₂ =>
        (Sound N v₂ ∧ Grows N (k + 1) { v with queue := [] } v₂) ∧ Grows N (k + 1) v₁ v₂ ∧
          Closed N n v₂ := by
    rintro n hn v₁ ⟨h₁, hgrows⟩
    have hn' := List.mem_reverse.1 hn
    obtain ⟨hseen, hcollects⟩ := h.waits n hn'
    refine Succeeds.mono (lookParts_tidy hN hcollects (Nat.succ_le_succ (hk n hn'))
      (hgrows.seen n hseen) h₁) ?_
    rintro v₂ ⟨h₂, hgrows', hclosed⟩
    exact ⟨⟨h₂, hgrows.trans hgrows'⟩, hgrows', hclosed⟩
  refine Succeeds.mono (Succeeds.forM (.refl N (k + 1)) .trans (fun hg hc => hc.grows hg) hparts
    ⟨hemptied, .refl N _ _⟩) ?_
  rintro v' ⟨⟨h', hgrows⟩, -, hclosed⟩
  refine ⟨h', fun n hn => ?_, fun n hn => ?_, hgrows.seen⟩
  · rcases hgrows.fresh n hn with hseen | hwaits
    · rcases hsettled n hseen with hqueue | hold
      · exact Or.inr (hclosed n (List.mem_reverse.2 hqueue))
      · have hold' : Closed N n { v with queue := [] } := hold
        exact Or.inr (hold'.grows hgrows)
    · exact hwaits
  · exact (hgrows.bound n hn).resolve_left nofun

/-- Level by level all nodes are found that the first ones lead to. -/
theorem run_tidy (hN : N.Tidy) (fuel : Nat) (h : Sound N v) (hsettled : Settled N v)
    (hk : ∀ n ∈ v.queue, k ≤ n) (hfuel : N.size ≤ k + fuel) :
    Succeeds (run fuel) v fun v' =>
      Sound N v' ∧ (∀ n, v'.Seen n → Closed N n v') ∧ ∀ n, v.Seen n → v'.Seen n := by
  induction fuel generalizing v k with
  | zero =>
    refine ⟨v, rfl, h, fun n hn => (hsettled n hn).resolve_left fun hqueue => ?_, fun _ => id⟩
    have hlt : n < N.size := by
      rcases (h.waits n hqueue).2 with ⟨ns, hnode⟩ | ⟨es, hnode⟩ <;>
        exact (Array.getElem?_eq_some_iff.1 hnode).1
    have hle := hk n hqueue
    omega
  | succ fuel ih =>
    have hrun : (run (fuel + 1)).run v =
        (v.queue.reverse.forM lookParts >>= fun _ => run fuel).run { v with queue := [] } := by
      rw [run, run_bind_ok run_get]
      rfl
    refine Succeeds.congr (Succeeds.bind (level_tidy hN h hsettled hk) ?_) hrun
    rintro v₁ ⟨h₁, hsettled₁, hk₁, hseen₁⟩
    refine Succeeds.mono (ih h₁ hsettled₁ hk₁ (by omega)) ?_
    rintro v₂ ⟨h₂, hclosed₂, hseen₂⟩
    exact ⟨h₂, hclosed₂, fun n hn => hseen₂ n (hseen₁ n hn)⟩

end Visit

end ModBuild.Yaml
