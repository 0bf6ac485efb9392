import ModBuild.Proofs.Json.Layout
import ModBuild.Proofs.Yaml.Preorder
import ModBuild.Proofs.Yaml.Step
import ModBuild.Yaml.Graph.Parse

/-!
# The graph of a JSON text

The tokens of a JSON text are parsed as nodes in preorder, unless a name in it does not fit.
-/

namespace ModBuild.Yaml.Parser

variable {α β : Type} {p p' : Parser} {t : Token} {ts : List Token} {fuel : Nat} {place : Place}

/-! ## Steps -/

theorem run_peek (h : p.tokens = t :: ts) : peek.run p = .ok (t, p) := by
  rw [peek, run_bind_ok run_get, h]
  rfl

theorem run_advance : advance.run p = .ok ((), { p with tokens := p.tokens.drop 1 }) := rfl

/-- A parser with some tokens left, and with more nodes, of which some are finished. -/
def grown (p : Parser) (ts : List Token) (nodes : List Node) (fs : List Nat) : Parser :=
  { p with tokens := ts, nodes := p.nodes ++ nodes.toArray, finished := fs ++ p.finished }

@[simp] theorem grown_tokens (nodes : List Node) (fs : List Nat) :
    (p.grown ts nodes fs).tokens = ts := rfl

@[simp] theorem size_grown (nodes : List Node) (fs : List Nat) :
    (p.grown ts nodes fs).nodes.size = p.nodes.size + nodes.length := by
  simp [grown]

@[simp] theorem grown_grown (ts' : List Token) (nodes nodes' : List Node) (fs fs' : List Nat) :
    (p.grown ts nodes fs).grown ts' nodes' fs' = p.grown ts' (nodes ++ nodes') (fs' ++ fs) := by
  simp [grown]

theorem drop_tokens (h : p.tokens = t :: ts) :
    ({ p with tokens := p.tokens.drop 1 } : Parser) = p.grown ts [] [] := by
  rw [h]
  simp [grown]

theorem run_start (node : Node) :
    (start .empty node).run p = .ok (p.nodes.size, p.grown p.tokens [node] []) := by
  rw [start, run_bind_ok run_get]
  change Except.ok (p.nodes.size, { p with nodes := p.nodes.push node }) = _
  rw [grown, List.nil_append, Array.push_eq_append]

theorem modify_append_cons {α : Type} (xs : Array α) (y : α) (ys : List α) (f : α → α) :
    (xs ++ (y :: ys).toArray).modify xs.size f = xs ++ (f y :: ys).toArray := by
  apply Array.ext'
  have hdrop : (xs.toList ++ y :: ys).drop (xs.size + 1) = ys := by
    rw [← Array.length_toList, ← List.drop_drop, List.drop_left]
    rfl
  simp [List.modify_eq_take_cons_drop, hdrop]

theorem run_finish {nodes : List Node} {fs : List Nat} {node : Node} (content : Content) :
    (finish p.nodes.size content).run (p.grown ts (node :: nodes) fs) =
      .ok (p.nodes.size,
        p.grown ts ({ node with content := content } :: nodes) (p.nodes.size :: fs)) := by
  change Except.ok (p.nodes.size, _) = _
  simp only [grown, modify_append_cons, List.cons_append]

theorem run_scalar (text : String) (plain : Bool) :
    (scalar .empty text plain).run p =
      .ok (p.nodes.size, p.grown p.tokens
        [⟨if plain then .ofPlain text else .str, .scalar text⟩] [p.nodes.size]) := by
  rw [scalar, run_bind_ok (run_start _), run_finish]
  cases plain <;> rfl

theorem run_properties (h : p.tokens = t :: ts) (ht : ∀ name, t ≠ .anchor name)
    (ht' : ∀ handle suffix, t ≠ .tag handle suffix) : properties.run p = .ok (.empty, p) := by
  rw [properties, run_bind_ok (run_peek h)]
  split
  · next name => exact absurd rfl (ht name)
  · next handle suffix => exact absurd rfl (ht' handle suffix)
  · rfl

theorem node_scalar {text : String} {plain : Bool} (h : p.tokens = .scalar text plain :: ts) :
    (node place (fuel + 1)).run p =
      .ok (p.nodes.size, p.grown ts
        [⟨if plain then .ofPlain text else .str, .scalar text⟩] [p.nodes.size]) := by
  rw [node, run_bind_ok (run_peek h)]
  simp only
  rw [run_bind_ok (run_properties h nofun nofun), run_bind_ok (run_peek h)]
  simp only
  rw [run_bind_ok run_advance, run_scalar, h]
  rfl

theorem node_sequence (h : p.tokens = .flowSequenceStart :: ts) :
    (node place (fuel + 1)).run p =
      (flowItems true fuel >>= fun ns => finish p.nodes.size (.sequence ns)).run
        (p.grown ts [⟨.seq, .sequence []⟩] []) := by
  rw [node, run_bind_ok (run_peek h)]
  simp only
  rw [run_bind_ok (run_properties h nofun nofun), run_bind_ok (run_peek h)]
  simp only
  rw [run_bind_ok run_advance, run_bind_ok (run_start _), h]
  rfl

theorem node_mapping (h : p.tokens = .flowMappingStart :: ts) :
    (node place (fuel + 1)).run p =
      (flowEntries true fuel >>= fun es => finish p.nodes.size (.mapping es)).run
        (p.grown ts [⟨.map, .mapping []⟩] []) := by
  rw [node, run_bind_ok (run_peek h)]
  simp only
  rw [run_bind_ok (run_properties h nofun nofun), run_bind_ok (run_peek h)]
  simp only
  rw [run_bind_ok run_advance, run_bind_ok (run_start _), h]
  rfl

/-! ## Items and entries -/

/-- A token that a value of JSON starts with. -/
inductive StartsNode : Token → Prop
  | sequence : StartsNode .flowSequenceStart
  | mapping : StartsNode .flowMappingStart
  | scalar (text : String) (plain : Bool) : StartsNode (.scalar text plain)

theorem flowItems_end {first : Bool} (h : p.tokens = .flowSequenceEnd :: ts) :
    (flowItems first (fuel + 1)).run p = .ok ([], p.grown ts [] []) := by
  rw [flowItems, run_bind_ok (run_peek h), if_pos rfl, run_bind_ok run_advance, h]
  rfl

theorem flowItems_first (h : p.tokens = t :: ts) (ht : StartsNode t) :
    (flowItems true (fuel + 1)).run p =
      (node .inFlow fuel >>= fun n => flowItems false fuel >>= fun ns => pure (n :: ns)).run p := by
  rw [flowItems, run_bind_ok (run_peek h)]
  cases ht <;> rw [if_neg nofun] <;> exact run_bind_ok (run_peek h)

/-- Behind a comma the rest of a list is read as a list is from its start. -/
theorem flowItems_comma (h : p.tokens = .flowEntry :: t :: ts) (ht : t ≠ .flowSequenceEnd) :
    (flowItems false (fuel + 1)).run p = (flowItems true (fuel + 1)).run (p.grown (t :: ts) [] []) := by
  have htokens : (p.grown (t :: ts) [] []).tokens = t :: ts := rfl
  rw [flowItems, run_bind_ok (run_peek h), if_neg nofun]
  refine (run_bind_ok (run_peek h)).trans ?_
  rw [if_pos rfl, run_bind_ok run_advance, drop_tokens h]
  refine (run_bind_ok (run_peek htokens)).trans (Eq.symm ?_)
  rw [flowItems, run_bind_ok (run_peek htokens), if_neg ht]
  exact run_bind_ok (run_peek htokens)

theorem flowEntries_end {first : Bool} (h : p.tokens = .flowMappingEnd :: ts) :
    (flowEntries first (fuel + 1)).run p = .ok ([], p.grown ts [] []) := by
  rw [flowEntries, run_bind_ok (run_peek h), if_pos rfl, run_bind_ok run_advance, h]
  rfl

theorem run_valueUnless (h : p.tokens = .value :: t :: ts) (ht : StartsNode t) :
    (valueUnless (endsFlowValue .flowMappingEnd) .inFlow (fuel + 2)).run p =
      (node .inFlow fuel).run (p.grown (t :: ts) [] []) := by
  have htokens : (p.grown (t :: ts) [] []).tokens = t :: ts := rfl
  rw [valueUnless, run_bind_ok (run_peek h)]
  refine (run_bind_ok run_advance).trans ?_
  rw [drop_tokens h, nodeUnless, run_bind_ok (run_peek htokens), if_neg (by cases ht <;> exact nofun)]

/-- A key and the mark of its value are read before the value. -/
theorem run_entry {key : String} (h : p.tokens = .scalar key false :: .value :: t :: ts)
    (ht : StartsNode t) (f : Nat → Nat → Step β) :
    (nodeUnless (endsFlowKey .flowMappingEnd) .inFlow (fuel + 2) >>= fun k =>
        valueUnless (endsFlowValue .flowMappingEnd) .inFlow (fuel + 2) >>= fun v => f k v).run p =
      (node .inFlow fuel >>= fun v => f p.nodes.size v).run
        (p.grown (t :: ts) [⟨.str, .scalar key⟩] [p.nodes.size]) := by
  have hkey : (nodeUnless (endsFlowKey .flowMappingEnd) .inFlow (fuel + 2)).run p =
      .ok (p.nodes.size,
        p.grown (.value :: t :: ts) [⟨.str, .scalar key⟩] [p.nodes.size]) := by
    rw [nodeUnless, run_bind_ok (run_peek h), if_neg nofun, node_scalar h]
    rfl
  rw [run_bind_ok hkey, StateT.run_bind, run_valueUnless rfl ht, grown_grown]
  rfl

theorem flowEntries_first {key : String}
    (h : p.tokens = .key :: .scalar key false :: .value :: t :: ts) (ht : StartsNode t) :
    (flowEntries true (fuel + 3)).run p =
      (node .inFlow fuel >>= fun v => flowEntries false (fuel + 2) >>= fun es =>
        pure ((p.nodes.size, v) :: es)).run
          (p.grown (t :: ts) [⟨.str, .scalar key⟩] [p.nodes.size]) := by
  rw [flowEntries, run_bind_ok (run_peek h), if_neg nofun]
  refine (run_bind_ok (run_peek h)).trans ?_
  refine (run_bind_ok run_advance).trans ?_
  rw [drop_tokens h, run_entry rfl ht, grown_grown]
  simp

/-- Behind a comma the rest of a mapping is read as a mapping is from its start. -/
theorem flowEntries_comma (h : p.tokens = .flowEntry :: t :: ts) (ht : t ≠ .flowMappingEnd) :
    (flowEntries false (fuel + 1)).run p =
      (flowEntries true (fuel + 1)).run (p.grown (t :: ts) [] []) := by
  have htokens : (p.grown (t :: ts) [] []).tokens = t :: ts := rfl
  rw [flowEntries, run_bind_ok (run_peek h), if_neg nofun]
  refine (run_bind_ok (run_peek h)).trans ?_
  rw [if_pos rfl, run_bind_ok run_advance, drop_tokens h]
  refine (run_bind_ok (run_peek htokens)).trans (Eq.symm ?_)
  rw [flowEntries, run_bind_ok (run_peek htokens), if_neg ht]
  exact run_bind_ok (run_peek htokens)

/-- A key that was not seen to be one is taken for an entry without a value, and then the mark of
its value has no place. -/
theorem flowEntries_unseen {key : String} (h : p.tokens = .scalar key false :: .value :: ts) :
    (flowEntries true (fuel + 2)).run p = .error .notYaml := by
  rw [flowEntries, run_bind_ok (run_peek h), if_neg nofun]
  refine (run_bind_ok (run_peek h)).trans ?_
  refine (run_bind_ok (node_scalar h)).trans ?_
  refine (run_bind_ok (run_scalar "" true)).trans ?_
  rw [grown_grown]
  refine run_bind_error ?_
  rw [flowEntries, run_bind_ok (run_peek rfl), if_neg nofun]
  refine (run_bind_ok (run_peek rfl)).trans ?_
  rw [if_neg nofun]
  rfl

/-! ## JSON texts -/

/-- How a step ends: well, with some result, if something fits, and otherwise with a refusal. -/
inductive Ends (x : Step α) (p : Parser) (fit : Bool) (after : α → Parser → Prop) : Prop
  | done (a : α) (p' : Parser) : fit = true → x.run p = .ok (a, p') → after a p' →
      Ends x p fit after
  | refused : fit = false → x.run p = .error .notYaml → Ends x p fit after

theorem Ends.bind {x : Step α} {f : α → Step β} {fit fit' : Bool} {after : α → Parser → Prop}
    {after' : β → Parser → Prop} (h : Ends x p fit after)
    (h' : ∀ a p', after a p' → Ends (f a) p' fit' after') :
    Ends (x >>= f) p (fit && fit') after' := by
  cases h with
  | refused hfit hrun => exact .refused (by rw [hfit]; rfl) (run_bind_error hrun)
  | done a p₁ hfit hrun hafter =>
    rw [hfit, Bool.true_and]
    cases h' a p₁ hafter with
    | done b p₂ hfit' hrun' hafter' =>
      exact .done b p₂ hfit' ((run_bind_ok hrun).trans hrun') hafter'
    | refused hfit' hrun' => exact .refused hfit' ((run_bind_ok hrun).trans hrun')

theorem Ends.of_run {x : Step α} {a : α} {after : α → Parser → Prop} (h : x.run p = .ok (a, p'))
    (hafter : after a p') : Ends x p true after :=
  .done a p' rfl h hafter

theorem Ends.congr {x y : Step α} {q : Parser} {fit : Bool} {after : α → Parser → Prop}
    (h : Ends y q fit after) (hrun : x.run p = y.run q) : Ends x p fit after := by
  cases h with
  | done a p' hfit hy hafter => exact .done a p' hfit (hrun.trans hy) hafter
  | refused hfit hy => exact .refused hfit (hrun.trans hy)

/-- A parser has become another by reading a part of a document up to some tokens. -/
def Built (p : Parser) (ts : List Token) (part : Part) (p' : Parser) : Prop :=
  ∃ nodes fs, p' = p.grown ts nodes fs ∧ Preorder p.nodes.size nodes fs part

open Json (Lexeme Meaning Piece Reading)

/-- A value is parsed. -/
def ParsesValue (p : Parser) (fuel : Nat) (fit : Bool) (ts : List Token) (v : Document.Value) :
    Prop :=
  ∀ place, Ends (node place fuel) p fit fun n p' => n = p.nodes.size ∧ Built p ts (.value v) p'

/-- Items of a list are parsed. -/
def ParsesItems (p : Parser) (first : Bool) (fuel : Nat) (fit : Bool) (ts : List Token)
    (vs : List Document.Value) : Prop :=
  Ends (flowItems first fuel) p fit fun ns p' => Built p ts (.items ns vs) p'

/-- Entries of a mapping are parsed. -/
def ParsesMembers (p : Parser) (first : Bool) (fuel : Nat) (fit : Bool) (ts : List Token)
    (kvs : List (String × Document.Value)) : Prop :=
  Ends (flowEntries first fuel) p fit fun es p' => Built p ts (.members es kvs) p'

theorem parsesItems_first {fit fit' : Bool} {us ts' : List Token} {v : Document.Value}
    {vs : List Document.Value} (h : p.tokens = t :: ts') (ht : StartsNode t)
    (hv : ParsesValue p fuel fit us v)
    (hvs : ∀ p' : Parser, p'.tokens = us → ParsesItems p' false fuel fit' ts vs) :
    ParsesItems p true (fuel + 1) (fit && fit') ts (v :: vs) := by
  refine Ends.congr ?_ (flowItems_first h ht)
  refine (hv .inFlow).bind ?_
  rintro n p₁ ⟨rfl, nodes, fs, rfl, hnodes⟩
  rw [← Bool.and_true fit']
  refine Ends.bind (hvs (p.grown us nodes fs) rfl) ?_
  rintro ns p₂ ⟨nodes', fs', rfl, hnodes'⟩
  refine Ends.of_run rfl ⟨nodes ++ nodes', fs' ++ fs, grown_grown _ _ _ _ _, ?_⟩
  rw [size_grown] at hnodes'
  exact .item hnodes hnodes'

theorem parsesMembers_first {fit fit' : Bool} {us : List Token} {key : String}
    {v : Document.Value} {kvs : List (String × Document.Value)}
    {ts' : List Token}
    (h : p.tokens = .key :: .scalar key false :: .value :: t :: ts') (ht : StartsNode t)
    (hv : ∀ p' : Parser, p'.tokens = t :: ts' → ParsesValue p' fuel fit us v)
    (hkvs : ∀ p' : Parser, p'.tokens = us → ParsesMembers p' false (fuel + 2) fit' ts kvs) :
    ParsesMembers p true (fuel + 3) (fit && fit') ts ((key, v) :: kvs) := by
  refine Ends.congr ?_ (flowEntries_first h ht)
  refine (hv (p.grown (t :: ts') [⟨.str, .scalar key⟩] [p.nodes.size]) rfl .inFlow).bind ?_
  rintro n p₁ ⟨rfl, nodes, fs, rfl, hnodes⟩
  rw [← Bool.and_true fit', grown_grown]
  refine Ends.bind (hkvs (p.grown us _ _) rfl) ?_
  rintro es p₂ ⟨nodes', fs', rfl, hnodes'⟩
  refine Ends.of_run rfl ⟨_, _, grown_grown _ _ _ _ _, ?_⟩
  rw [size_grown] at hnodes hnodes' ⊢
  rw [List.singleton_append, List.length_cons, Nat.add_comm nodes.length 1, ← Nat.add_assoc]
    at hnodes'
  exact .member key hnodes hnodes'

theorem StartsNode.not_closing (ht : StartsNode t) : t ≠ .flowSequenceEnd ∧ t ≠ .flowMappingEnd := by
  cases ht <;> exact ⟨nofun, nofun⟩

theorem Built.of_skipped {us : List Token} {part : Part} (h : Built (p.grown us [] []) ts part p') :
    Built p ts part p' := by
  obtain ⟨nodes, fs, rfl, hnodes⟩ := h
  rw [size_grown] at hnodes
  exact ⟨nodes, fs, by rw [grown_grown, List.append_nil]; rfl, hnodes⟩

theorem Ends.mono {x : Step α} {fit : Bool} {after after' : α → Parser → Prop}
    (h : Ends x p fit after) (hafter : ∀ a p', after a p' → after' a p') : Ends x p fit after' := by
  cases h with
  | done a p' hfit hrun ha => exact .done a p' hfit hrun (hafter a p' ha)
  | refused hfit hrun => exact .refused hfit hrun

theorem parsesItems_comma {fit : Bool} {us : List Token} {vs : List Document.Value}
    (h : p.tokens = .flowEntry :: t :: us) (ht : StartsNode t)
    (hvs : ∀ p' : Parser, p'.tokens = t :: us → ParsesItems p' true (fuel + 1) fit ts vs) :
    ParsesItems p false (fuel + 1) fit ts vs :=
  Ends.congr ((hvs (p.grown (t :: us) [] []) rfl).mono fun _ _ => Built.of_skipped)
    (flowItems_comma h ht.not_closing.1)

theorem parsesMembers_comma {fit : Bool} {us : List Token} {kvs : List (String × Document.Value)}
    (h : p.tokens = .flowEntry :: t :: us) (ht : t ≠ .flowMappingEnd)
    (hkvs : ∀ p' : Parser, p'.tokens = t :: us → ParsesMembers p' true (fuel + 1) fit ts kvs) :
    ParsesMembers p false (fuel + 1) fit ts kvs :=
  Ends.congr ((hkvs (p.grown (t :: us) [] []) rfl).mono fun _ _ => Built.of_skipped)
    (flowEntries_comma h ht)

theorem parsesValue_list {fit : Bool} {us : List Token} {vs : List Document.Value}
    (h : p.tokens = .flowSequenceStart :: us)
    (hvs : ∀ p' : Parser, p'.tokens = us → ParsesItems p' true fuel fit ts vs) :
    ParsesValue p (fuel + 1) fit ts (.list vs) := by
  intro place
  refine Ends.congr ?_ (node_sequence h)
  rw [← Bool.and_true fit]
  refine Ends.bind (hvs (p.grown us [⟨.seq, .sequence []⟩] []) rfl) ?_
  rintro ns p₁ ⟨nodes, fs, rfl, hnodes⟩
  rw [size_grown] at hnodes
  rw [grown_grown, List.append_nil]
  exact Ends.of_run (run_finish _) ⟨rfl, _, _, rfl, .list hnodes⟩

theorem parsesValue_map {fit : Bool} {us : List Token} {kvs : List (String × Document.Value)}
    (h : p.tokens = .flowMappingStart :: us)
    (hkvs : ∀ p' : Parser, p'.tokens = us → ParsesMembers p' true fuel fit ts kvs) :
    ParsesValue p (fuel + 1) fit ts (Json.object kvs) := by
  intro place
  refine Ends.congr ?_ (node_mapping h)
  rw [← Bool.and_true fit]
  refine Ends.bind (hkvs (p.grown us [⟨.map, .mapping []⟩] []) rfl) ?_
  rintro es p₁ ⟨nodes, fs, rfl, hnodes⟩
  rw [size_grown] at hnodes
  rw [grown_grown, List.append_nil]
  exact Ends.of_run (run_finish _) ⟨rfl, _, _, rfl, .map hnodes⟩

/-- YAML reads the scalars and names of JSON in some way. -/
structure ReadAs (ρ : Reading) : Prop where
  string : ∀ gs, ρ.string gs = Json.readString gs
  scalar : ∀ s : Json.Scalar, ∃ text plain, s.token = .scalar text plain ∧
    readScalar (if plain then .ofPlain text else .str) text = .ok (ρ.scalar s)

/-- What it means that pieces are parsed depends on what they stand for. -/
def Parses (p : Parser) (fuel : Nat) (fit : Bool) (ts : List Token) : Meaning → Prop
  | .value v => ParsesValue p fuel fit ts v
  | .items vs => ParsesItems p false fuel fit ts vs
  | .members kvs => ParsesMembers p false fuel fit ts kvs

theorem exists_startsNode {ρ : Reading} {ps : List Piece} {v : Document.Value}
    (hv : Json.Encodes ρ ps (.value v)) :
    ∃ t us, ps.flatMap Piece.tokens = t :: us ∧ StartsNode t := by
  cases hv with
  | scalar g s => cases s <;> exact ⟨_, _, rfl, .scalar _ _⟩
  | emptyArray | array => exact ⟨_, _, rfl, .sequence⟩
  | emptyObject | object => exact ⟨_, _, rfl, .mapping⟩

/-- A member is parsed as such if its name fits. -/
theorem parsesMembers_name {fit fit' : Bool} {us ts' : List Token} {gs : List Json.Glyph}
    {k : Json.Gap} {v : Document.Value} {kvs : List (String × Document.Value)}
    (h : p.tokens = (Lexeme.name gs k).tokens ++ t :: ts') (ht : StartsNode t)
    (hv : ∀ p' : Parser, p'.tokens = t :: ts' → ParsesValue p' fuel fit us v)
    (hkvs : ∀ p' : Parser, p'.tokens = us → ParsesMembers p' false (fuel + 2) fit' ts kvs) :
    ParsesMembers p true (fuel + 3) (Json.fits gs k && (fit && fit')) ts
      ((Json.readString gs, v) :: kvs) := by
  rw [Lexeme.tokens] at h
  cases hfits : Json.fits gs k with
  | true =>
    rw [hfits] at h
    rw [Bool.true_and]
    exact parsesMembers_first h ht hv hkvs
  | false =>
    rw [hfits] at h
    exact .refused rfl (flowEntries_unseen h)

theorem two_le_length_name (gs : List Json.Glyph) (k : Json.Gap) :
    2 ≤ (Lexeme.name gs k).tokens.length := by
  rw [Lexeme.tokens]
  split <;> simp

theorem exists_of_name (gs : List Json.Glyph) (k : Json.Gap) :
    ∃ t us, (Lexeme.name gs k).tokens = t :: us ∧ t ≠ .flowMappingEnd := by
  rw [Lexeme.tokens]
  split <;> exact ⟨_, _, rfl, nofun⟩

/-- Whatever pieces of a JSON text stand for, their tokens are parsed as it. -/
theorem parses_pieces {ρ : Reading} (hρ : ReadAs ρ) {ps : List Piece} {m : Meaning}
    (hm : Json.Encodes ρ ps m) (h : p.tokens = ps.flatMap Piece.tokens ++ ts)
    (hfuel : 2 * (ps.flatMap Piece.tokens).length ≤ fuel) :
    p.Parses fuel (ps.all (·.lexeme.fits)) ts m := by
  induction hm generalizing p ts fuel with
  | scalar g s =>
    obtain ⟨fuel, rfl⟩ := Nat.exists_eq_add_of_le' hfuel
    obtain ⟨text, plain, htoken, hread⟩ := hρ.scalar s
    rw [List.flatMap_singleton, Piece.tokens, Lexeme.tokens, htoken] at h
    intro place
    exact Ends.of_run (node_scalar h) ⟨rfl, _, _, rfl, .scalar _ hread⟩
  | emptyArray g g' =>
    obtain ⟨fuel, rfl⟩ := Nat.exists_eq_add_of_le' hfuel
    refine parsesValue_list h fun p' hp' => ?_
    exact Ends.of_run (flowItems_end hp') ⟨[], [], rfl, .noItems _⟩
  | @array g ps qs v vs hv hvs ih ih' =>
    obtain ⟨t, us, hps, ht⟩ := exists_startsNode hv
    simp only [List.flatMap_cons, List.flatMap_append, List.append_assoc] at h
    simp only [List.flatMap_cons, List.flatMap_append, List.length_append] at hfuel
    change 2 * (1 + (_ + _)) ≤ fuel at hfuel
    obtain ⟨fuel, rfl⟩ := Nat.exists_eq_add_of_le' (show 2 ≤ fuel by omega)
    simp only [List.all_cons, List.all_append, Lexeme.fits, Bool.true_and]
    refine parsesValue_list h fun p₁ h₁ => ?_
    exact parsesItems_first (hps ▸ h₁) ht (ih h₁ (by omega)) fun p₂ h₂ => ih' h₂ (by omega)
  | endArray g =>
    obtain ⟨fuel, rfl⟩ := Nat.exists_eq_add_of_le' hfuel
    exact Ends.of_run (flowItems_end h) ⟨[], [], rfl, .noItems _⟩
  | @item g ps qs v vs hv hvs ih ih' =>
    obtain ⟨t, us, hps, ht⟩ := exists_startsNode hv
    simp only [List.flatMap_cons, List.flatMap_append, List.append_assoc] at h
    simp only [List.flatMap_cons, List.flatMap_append, List.length_append] at hfuel
    change 2 * (1 + (_ + _)) ≤ fuel at hfuel
    obtain ⟨fuel, rfl⟩ := Nat.exists_eq_add_of_le' (show 1 ≤ fuel by omega)
    simp only [List.all_cons, List.all_append, Lexeme.fits, Bool.true_and]
    rw [hps] at h
    refine parsesItems_comma h ht fun p₁ h₁ => ?_
    refine parsesItems_first h₁ ht (ih ?_ (by omega)) fun p₂ h₂ => ih' h₂ (by omega)
    rw [h₁, hps]
    rfl
  | emptyObject g g' =>
    obtain ⟨fuel, rfl⟩ := Nat.exists_eq_add_of_le' hfuel
    refine parsesValue_map h fun p' hp' => ?_
    exact Ends.of_run (flowEntries_end hp') ⟨[], [], rfl, .noMembers _⟩
  | @object g g' gs k ps qs v es hv hes ih ih' =>
    obtain ⟨t, us, hps, ht⟩ := exists_startsNode hv
    have hname := two_le_length_name gs k
    simp only [List.flatMap_cons, List.flatMap_append, List.append_assoc] at h
    simp only [List.flatMap_cons, List.flatMap_append, List.length_append] at hfuel
    change 2 * (1 + ((Lexeme.name gs k).tokens.length + (_ + _))) ≤ fuel at hfuel
    obtain ⟨fuel, rfl⟩ := Nat.exists_eq_add_of_le' (show 4 ≤ fuel by omega)
    simp only [List.all_cons, List.all_append, Lexeme.fits, Bool.true_and, hρ.string]
    refine parsesValue_map h fun p₁ h₁ => ?_
    rw [hps] at h₁
    refine parsesMembers_name h₁ ht (fun p₂ h₂ => ih ?_ (by omega)) fun p₂ h₂ => ih' h₂ (by omega)
    rw [h₂, hps]
    rfl
  | endObject g =>
    obtain ⟨fuel, rfl⟩ := Nat.exists_eq_add_of_le' hfuel
    exact Ends.of_run (flowEntries_end h) ⟨[], [], rfl, .noMembers _⟩
  | @member g g' gs k ps qs v es hv hes ih ih' =>
    obtain ⟨t, us, hps, ht⟩ := exists_startsNode hv
    obtain ⟨t', us', hname, ht'⟩ := exists_of_name gs k
    have htwo := two_le_length_name gs k
    simp only [List.flatMap_cons, List.flatMap_append, List.append_assoc] at h
    simp only [List.flatMap_cons, List.flatMap_append, List.length_append] at hfuel
    change 2 * (1 + ((Lexeme.name gs k).tokens.length + (_ + _))) ≤ fuel at hfuel
    obtain ⟨fuel, rfl⟩ := Nat.exists_eq_add_of_le' (show 3 ≤ fuel by omega)
    simp only [List.all_cons, List.all_append, Lexeme.fits, Bool.true_and, hρ.string]
    rw [hps, Piece.tokens, Piece.tokens, hname] at h
    refine parsesMembers_comma h ht' fun p₁ h₁ => ?_
    have hnamed : p₁.tokens =
        (Lexeme.name gs k).tokens ++ t :: (us ++ (qs.flatMap Piece.tokens ++ ts)) := by
      rw [h₁, hname]
      rfl
    refine parsesMembers_name hnamed ht (fun p₂ h₂ => ih ?_ (by omega))
      fun p₂ h₂ => ih' h₂ (by omega)
    rw [h₂, hps]
    rfl

/-! ## Documents -/

theorem run_root (h : p.tokens = t :: ts) (ht : StartsNode t) :
    (root? fuel).run p = (node .inBlock fuel >>= fun n => pure (some n)).run p := by
  rw [root?, run_bind_ok (run_peek h)]
  cases ht <;> rfl

theorem run_readEnd (h : p.tokens = [.streamEnd]) : (readEnd (fuel + 1)).run p = .ok ((), p) := by
  have hskip : (skipWhile isDocumentEnd (fuel + 1)).run p = .ok ((), p) := by
    rw [skipWhile, run_bind_ok (run_peek h)]
    rfl
  rw [readEnd, run_bind_ok hskip, run_bind_ok (run_peek h)]
  rfl

theorem parses_document {ρ : Reading} (hρ : ReadAs ρ) {x : Json.Text} {v : Document.Value}
    (hv : Json.Encodes ρ x.pieces (.value v)) (h : p.tokens = x.tokens)
    (hfuel : 2 * x.tokens.length ≤ fuel) :
    Ends (document? fuel) p x.fits fun n? p' =>
      n? = some p.nodes.size ∧ Built p [.streamEnd] (.value v) p' := by
  obtain ⟨t, us, hps, ht⟩ := exists_startsNode hv
  have hlength : x.tokens.length = (x.pieces.flatMap Piece.tokens).length + 1 := by
    rw [Json.Text.tokens, List.length_append, List.length_singleton]
  obtain ⟨fuel, rfl⟩ := Nat.exists_eq_add_of_le' (show 1 ≤ fuel by omega)
  have hroot : Ends (root? (fuel + 1)) p x.fits fun n? p' =>
      n? = some p.nodes.size ∧ Built p [.streamEnd] (.value v) p' := by
    refine Ends.congr ?_ (run_root (h.trans (by rw [Json.Text.tokens, hps]; rfl)) ht)
    rw [← Bool.and_true x.fits]
    refine Ends.bind (parses_pieces hρ hv h (by omega) .inBlock) ?_
    rintro n p' ⟨rfl, hbuilt⟩
    exact Ends.of_run rfl ⟨rfl, hbuilt⟩
  rw [document?, ← Bool.and_true x.fits]
  refine hroot.bind ?_
  rintro _ p' ⟨rfl, nodes, fs, rfl, hnodes⟩
  exact Ends.of_run (run_bind_ok (run_readEnd rfl)) ⟨rfl, nodes, fs, rfl, hnodes⟩

/-- A parser before some tokens. -/
def initial (ts : List Token) : Parser :=
  ⟨ts, none, #[], [], [], defaultHandles, false⟩

end Parser

open Json (Reading)

variable {ρ : Reading} {t : Json.Text} {v : Document.Value}

/-- The tokens of a JSON text whose names all fit make up a graph in preorder. -/
theorem Graph.ofTokens_of_fits (hρ : Parser.ReadAs ρ) (hv : Json.Encodes ρ t.pieces (.value v))
    (hfits : t.fits) :
    ∃ nodes fs, Graph.ofTokens ⟨t.tokens, none⟩ =
        .ok (some ⟨nodes.toArray, 0, fs.reverse, false⟩) ∧
      Preorder 0 nodes fs (.value v) := by
  have hends : Parser.Ends (Parser.document? (4 * t.tokens.length + 8))
      (Parser.initial t.tokens) t.fits _ := Parser.parses_document hρ hv rfl (by omega)
  cases hends with
  | refused hunfit hrun =>
    rw [hfits] at hunfit
    cases hunfit
  | done n? p' _ hrun hafter =>
    obtain ⟨rfl, nodes, fs, rfl, hnodes⟩ := hafter
    refine ⟨nodes, fs, ?_, hnodes⟩
    rw [Graph.ofTokens]
    change (StateT.run _ (Parser.initial t.tokens) >>= _) = _
    rw [hrun]
    change Except.ok _ = _
    simp [Parser.grown, Parser.initial]

/-- The tokens of a JSON text with a name that does not fit are refused. -/
theorem Graph.ofTokens_of_not_fits (hρ : Parser.ReadAs ρ)
    (hv : Json.Encodes ρ t.pieces (.value v)) (hunfit : t.fits = false) :
    Graph.ofTokens ⟨t.tokens, none⟩ = .error .notYaml := by
  have hends : Parser.Ends (Parser.document? (4 * t.tokens.length + 8))
      (Parser.initial t.tokens) t.fits _ := Parser.parses_document hρ hv rfl (by omega)
  cases hends with
  | refused _ hrun =>
    rw [Graph.ofTokens]
    change (StateT.run _ (Parser.initial t.tokens) >>= _) = _
    rw [hrun]
    rfl
  | done _ _ hfits _ _ =>
    rw [hunfit] at hfits
    cases hfits

end ModBuild.Yaml
