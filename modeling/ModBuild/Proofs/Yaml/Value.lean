import ModBuild.Proofs.Yaml.Visit

/-!
# The value of a graph in preorder

The nodes of a graph in preorder are given their values from the last level up, and the root is
given the value that the graph was made for.
-/

namespace ModBuild.Yaml

open Document (Key Value)

variable {N : Nodes} {n : Nat} {nodes : List Node} {fs : List Nat} {part : Part}

/-- The nodes that are finished in a run are among its own. -/
theorem Preorder.finished_mem (h : Preorder n nodes fs part) :
    ∀ m ∈ fs, n ≤ m ∧ m < n + nodes.length := by
  induction h with
  | scalar n =>
    intro m hm
    obtain rfl := List.mem_singleton.1 hm
    simp
  | list _ ih | map _ ih =>
    intro m hm
    rw [List.length_cons]
    rcases List.mem_cons.1 hm with rfl | hm
    · omega
    · have hmem := ih m hm
      omega
  | noItems | noMembers => exact nofun
  | item _ _ ih ih' =>
    intro m hm
    rw [List.length_append]
    rcases List.mem_append.1 hm with hm | hm
    · have hmem := ih' m hm
      omega
    · have hmem := ih m hm
      omega
  | member key _ _ ih ih' =>
    intro m hm
    rw [List.length_cons, List.length_append]
    simp only [List.mem_append, List.mem_singleton] at hm
    rcases hm with hm | hm | rfl
    · have hmem := ih' m hm
      omega
    · have hmem := ih m hm
      omega
    · omega

namespace Visit

variable {v : Visit} {values values' : Array Value}

/-! ## Giving values -/

theorem values_append (ns ns' : List Nat) :
    v.values values (ns ++ ns') = v.values (v.values values ns) ns' :=
  List.foldl_append

@[simp] theorem size_values (ns : List Nat) : (v.values values ns).size = values.size := by
  induction ns generalizing values with
  | nil => rfl
  | cons n ns ih =>
    rw [Visit.values, List.foldl_cons]
    exact ih.trans (by simp)

/-- Only the nodes in question are given values. -/
theorem values_of_not_mem {ns : List Nat} {m : Nat} (hm : m ∉ ns) :
    (v.values values ns)[m]? = values[m]? := by
  induction ns generalizing values with
  | nil => rfl
  | cons n ns ih =>
    rw [List.mem_cons, not_or] at hm
    rw [Visit.values, List.foldl_cons]
    refine (ih hm.2).trans ?_
    rw [Array.set!_eq_setIfInBounds, Array.getElem?_setIfInBounds, if_neg (Ne.symm hm.1)]

theorem values_singleton (hn : n < values.size) :
    (v.values values [n])[n]? = some (v.value values n) := by
  rw [Visit.values, List.foldl_cons, List.foldl_nil, Array.set!_eq_setIfInBounds,
    Array.getElem?_setIfInBounds, if_pos rfl, if_pos hn]

theorem Sound.found_of_seen (h : Sound N v) {node : Node} (hn : N[n]? = some node)
    (hseen : v.Seen n) : ∃ f, v.found[n]?.join = some f ∧ Kind node f := by
  obtain ⟨f, hf⟩ := hseen
  obtain ⟨node', hn', hkind⟩ := h.kind n f hf
  obtain rfl := Option.some.inj (hn.symm.trans hn')
  exact ⟨f, hf, hkind⟩

/-! ## Runs of nodes -/

/-- The nodes of a run have the values that it stands for. -/
def Holds (v : Visit) (values : Array Value) (n : Nat) : Part → Prop
  | .value x => values[n]? = some x
  | .items ns vs => ns.map (fun m => values[m]?.getD .other) = vs
  | .members es kvs =>
    es.map (fun e => (v.key e.1, values[e.2]?.getD .other)) = kvs.map fun e => (.text e.1, e.2)

theorem Holds.congr (h : v.Holds values n part)
    (hsame : ∀ m ∈ part.numbers n, values'[m]? = values[m]?) : v.Holds values' n part := by
  cases part with
  | value x => exact (hsame n (List.mem_singleton_self n)).trans h
  | items ns vs =>
    refine Eq.trans (List.map_congr_left fun m hm => ?_) h
    rw [hsame m hm]
  | members es kvs =>
    refine Eq.trans (List.map_congr_left fun e he => ?_) h
    rw [hsame e.2 (List.mem_flatMap.2 ⟨e, he, by simp⟩)]

theorem value_scalar {k : Key} (hf : v.found[n]?.join = some (.scalar k)) :
    v.value values n = k.value := by
  rw [value, hf]

theorem value_list {ns : List Nat} {vs : List Value} (hf : v.found[n]?.join = some .list)
    (hitems : v.nodes.items? n = some ns) (h : v.Holds values (n + 1) (.items ns vs)) :
    v.value values n = .list vs := by
  rw [value, hf]
  simp only
  rw [hitems]
  exact congrArg Value.list h

theorem value_map {es : List (Nat × Nat)} {kvs : List (String × Value)}
    (hf : v.found[n]?.join = some .map) (hentries : v.nodes.entries? n = some es)
    (h : v.Holds values (n + 1) (.members es kvs)) :
    v.value values n = Json.object kvs := by
  rw [value, hf]
  simp only
  rw [hentries]
  exact congrArg Value.ofPairs h

/-- A run keeps its values when those behind it are given theirs. -/
theorem Holds.values_behind {nodes' : List Node} {fs' : List Nat} {part' : Part}
    (h : v.Holds values n part) (hrun : Preorder n nodes fs part)
    (hrun' : Preorder (n + nodes.length) nodes' fs' part') :
    v.Holds (v.values values fs'.reverse) n part := by
  refine h.congr fun m hm => values_of_not_mem fun hm' => ?_
  have hlt := hrun.numbers_mem m hm
  have hle := hrun'.finished_mem m (List.mem_reverse.1 hm')
  omega

/-- When the nodes of a run were given values, they have those that it stands for. -/
theorem holds_values (h : Preorder n nodes fs part) (hN : Placed N n nodes) (hv : Sound N v)
    (hclosed : ∀ m, v.Seen m → Closed N m v) (hseen : ∀ m ∈ part.numbers n, v.Seen m)
    (hsize : values.size = N.size) : v.Holds (v.values values fs.reverse) n part := by
  induction h generalizing values with
  | @scalar n tag text k hread =>
    obtain ⟨f, hf, hkind⟩ := hv.found_of_seen hN.head (hseen n (List.mem_singleton_self n))
    refine (values_singleton (hsize.symm ▸ hN.lt_size (by simp))).trans ?_
    cases hkind with
    | scalar hread' =>
      obtain rfl := Except.ok.inj (hread.symm.trans hread')
      exact congrArg some (value_scalar hf)
  | @list n nodes fs ns vs hns ih =>
    have hn := hseen n (List.mem_singleton_self n)
    obtain ⟨f, hf, hkind⟩ := hv.found_of_seen hN.head hn
    have hitems : v.nodes.items? n = some ns := by
      rw [hv.nodes, Nodes.items?, hN.head]
      rfl
    have hlt : n < (v.values values fs.reverse).size := by
      rw [size_values, hsize]
      exact hN.lt_size (by simp)
    cases hkind with
    | list =>
      rw [List.reverse_cons, values_append]
      refine (values_singleton hlt).trans (congrArg some (value_list hf hitems ?_))
      exact ih hN.tail (hclosed n hn _ hN.head) hsize
  | @map n nodes fs es kvs hes ih =>
    have hn := hseen n (List.mem_singleton_self n)
    obtain ⟨f, hf, hkind⟩ := hv.found_of_seen hN.head hn
    have hentries : v.nodes.entries? n = some es := by
      rw [hv.nodes, Nodes.entries?, hN.head]
      rfl
    have hlt : n < (v.values values fs.reverse).size := by
      rw [size_values, hsize]
      exact hN.lt_size (by simp)
    cases hkind with
    | map =>
      rw [List.reverse_cons, values_append]
      refine (values_singleton hlt).trans (congrArg some (value_map hf hentries ?_))
      exact ih hN.tail (hclosed n hn _ hN.head) hsize
  | noItems | noMembers => rfl
  | @item n nodes nodes' fs fs' ns x xs hx hxs ih ih' =>
    rw [List.reverse_append, values_append]
    have hfirst : v.Holds (v.values values fs.reverse) n (.value x) :=
      ih hN.left (fun m hm => hseen m (List.mem_singleton.1 hm ▸ List.mem_cons_self)) hsize
    have hkept : (v.values (v.values values fs.reverse) fs'.reverse)[n]? = some x :=
      hfirst.values_behind hx hxs
    have hrest : ns.map (fun m =>
        (v.values (v.values values fs.reverse) fs'.reverse)[m]?.getD .other) = xs :=
      ih' hN.right (fun m hm => hseen m (List.mem_cons_of_mem n hm)) ((size_values _).trans hsize)
    rw [Holds, List.map_cons, hkept, hrest]
    rfl
  | @member n key nodes nodes' fs fs' x es kvs hx hes ih ih' =>
    obtain ⟨f, hf, hkind⟩ := hv.found_of_seen hN.head (hseen n List.mem_cons_self)
    have hkey : v.key n = .text key := by
      cases hkind with
      | scalar hread =>
        rw [Visit.key, hf]
        exact (Except.ok.inj hread).symm
    rw [← List.append_assoc, List.reverse_append, List.reverse_append, values_append,
      values_append, List.reverse_singleton]
    have hsize' : (v.values values [n]).size = N.size := (size_values _).trans hsize
    have hfirst : v.Holds (v.values (v.values values [n]) fs.reverse) (n + 1) (.value x) :=
      ih hN.tail.left (fun m hm => hseen m (List.mem_singleton.1 hm ▸ by simp [Part.numbers])) hsize'
    have hkept : (v.values (v.values (v.values values [n]) fs.reverse) fs'.reverse)[n + 1]? = some x :=
      hfirst.values_behind hx hes
    have hrest : es.map (fun e => (v.key e.1,
        (v.values (v.values (v.values values [n]) fs.reverse) fs'.reverse)[e.2]?.getD .other)) =
          kvs.map fun e => (.text e.1, e.2) :=
      ih' hN.tail.right
        (fun m hm => hseen m (List.mem_cons_of_mem n (List.mem_cons_of_mem (n + 1) hm)))
        ((size_values _).trans hsize')
    rw [Holds, List.map_cons, List.map_cons, hkept, hkey, hrest]
    rfl

/-- Nothing was looked at yet. -/
def fresh (N : Nodes) : Visit :=
  ⟨N, Array.replicate N.size none, []⟩

theorem not_seen_fresh (N : Nodes) (n : Nat) : ¬ (fresh N).Seen n := by
  rintro ⟨f, hf⟩
  rw [fresh, Array.getElem?_replicate] at hf
  split at hf <;> cases hf

theorem sound_fresh (N : Nodes) : Sound N (fresh N) where
  nodes := rfl
  size := Array.size_replicate
  kind n f hf := absurd ⟨f, hf⟩ (not_seen_fresh N n)
  waits := nofun

/-- All nodes that the first leads to are found to be what they are. -/
theorem visits_tidy (hN : N.Tidy) (hpos : 0 < N.size) :
    Succeeds (look 0 >>= fun _ => run (N.size + 1)) (fresh N) fun v =>
      Sound N v ∧ (∀ n, v.Seen n → Closed N n v) ∧ v.Seen 0 := by
  refine Succeeds.bind (look_lt hN hpos (Nat.le_refl 0) (sound_fresh N)) ?_
  rintro v₁ ⟨h₁, hgrows, hseen⟩
  have hsettled : Settled N v₁ := fun n hn => (hgrows.fresh n hn).resolve_left (not_seen_fresh N n)
  refine Succeeds.mono (run_tidy hN (N.size + 1) h₁ hsettled (fun n _ => Nat.zero_le n) (by omega)) ?_
  rintro v₂ ⟨h₂, hclosed, hseen₂⟩
  exact ⟨h₂, hclosed, hseen₂ 0 hseen⟩

end Visit

/-- The value of a graph in preorder is what it was made for. -/
theorem Graph.value_preorder {x : Value} (h : Preorder 0 nodes fs (.value x)) :
    Graph.value ⟨nodes.toArray, 0, fs.reverse, false⟩ = .ok x := by
  have hplaced : Placed nodes.toArray 0 nodes := by
    intro i node hi
    rw [Nat.zero_add, List.getElem?_toArray, hi]
  have hlength := (h.numbers_mem 0 (List.mem_singleton_self 0)).2
  have htidy : Nodes.Tidy nodes.toArray := by
    intro n node hn
    have hlt := (Array.getElem?_eq_some_iff.1 hn).1
    obtain ⟨node', hn', htidy⟩ := h.tidy hplaced n (Nat.zero_le n) (by simpa using hlt)
    obtain rfl := Option.some.inj (hn.symm.trans hn')
    exact htidy
  obtain ⟨v, hrun, hsound, hclosed, hseen⟩ := Visit.visits_tidy htidy (by simpa using hlength)
  have hholds : (v.values (Array.replicate nodes.toArray.size .other) fs.reverse)[0]? = some x :=
    Visit.holds_values h hplaced hsound hclosed (fun m hm => List.mem_singleton.1 hm ▸ hseen)
      Array.size_replicate
  rw [Graph.value]
  change (StateT.run _ (Visit.fresh nodes.toArray) >>= _) = _
  rw [hrun]
  change Except.ok _ = _
  refine congrArg Except.ok ?_
  change (v.values _ _)[0]?.getD .other = x
  rw [hholds]
  rfl

end ModBuild.Yaml
