import ModBuild.Proofs.Template.Replace
import ModBuild.Template.Render

/-!
# Rendering is leftmost and longest

A table renders a text by the cut that its tokens make.  The cut is known from
the text and the names alone, so neither the values nor the order of the table
have a say in where a token is replaced (`render_leftmost_longest`).
-/

namespace ModBuild.Template

/-- The tokens of some names. -/
def tokens (delimited : Bool) (names : List String) : List (List Char) :=
  names.map (token delimited)

/-- What a table says of the values of its tokens.  The empty word has no value
if it is no token. -/
structure TokenValues (delimited : Bool) (table : List (String × String))
    (value : List Char → List Char) : Prop where
  /-- Every token has the value of its variable. -/
  of_mem : ∀ v ∈ table, value (token delimited v.1) = v.2.toList
  /-- Without an empty token nothing stands before a single character. -/
  of_no_empty : [] ∉ tokens delimited (table.map (·.1)) → value [] = []

theorem enclosed_injective {α : Type} {mark : α} {delimited : Bool} :
    (enclosed mark delimited).Injective := by
  intro n m h
  cases delimited with
  | false => exact h
  | true =>
    have htail : n ++ [mark] = m ++ [mark] := List.tail_eq_of_cons_eq h
    exact List.append_cancel_right htail

/-- Different names have different tokens. -/
theorem token_injective {delimited : Bool} {n m : String}
    (h : token delimited n = token delimited m) : n = m :=
  String.toList_inj.1 (enclosed_injective h)

theorem words_replacements (delimited : Bool) (table : List (String × String)) :
    words (replacements delimited table) = tokens delimited (table.map (·.1)) := by
  simp [words, replacements, tokens, Function.comp_def]

theorem words_replacements_nodup (delimited : Bool) {table : List (String × String)}
    (h : (table.map (·.1)).Nodup) : (words (replacements delimited table)).Nodup := by
  rw [words_replacements]
  exact List.Pairwise.map (token delimited) (fun _ _ hne he => hne (token_injective he)) h

theorem tokenValues_valueOf (delimited : Bool) {table : List (String × String)}
    (h : (table.map (·.1)).Nodup) :
    TokenValues delimited table (valueOf (replacements delimited table)) where
  of_mem v hv := by
    have hr : ⟨token delimited v.1, v.2.toList⟩ ∈ replacements delimited table :=
      List.mem_map.2 ⟨v, hv, rfl⟩
    exact valueOf_of_mem (words_replacements_nodup delimited h) hr
  of_no_empty he := by
    rw [← words_replacements] at he
    exact valueOf_of_not_mem he

/-- A table renders a text by the cut that its tokens make. -/
theorem render_of_cut (delimited : Bool) {table : List (String × String)}
    (h : (table.map (·.1)).Nodup) {text : String} {items : List (Item Char)}
    (hc : Cut (tokens delimited (table.map (·.1))) text.toList items) :
    render delimited table text =
      .ofList (rendering (valueOf (replacements delimited table)) items) := by
  rw [← words_replacements] at hc
  rw [render, renderChars, replace_of_cut (words_replacements_nodup delimited h) hc]

/-- Tables with the same names cut a text in the same way. -/
theorem cut_tokens_congr {delimited : Bool} {names names' : List String}
    (hn : ∀ n, n ∈ names ↔ n ∈ names') {text : List Char} {items : List (Item Char)}
    (hc : Cut (tokens delimited names) text items) : Cut (tokens delimited names') text items :=
  hc.congr fun w => by simp only [tokens, List.mem_map, hn]

/-- The order of a table does not matter. -/
theorem render_perm (delimited : Bool) {table other : List (String × String)}
    (h : (table.map (·.1)).Nodup) (hp : other.Perm table) (text : String) :
    render delimited other text = render delimited table text := by
  obtain ⟨items, hc⟩ := Cut.exists (tokens delimited (table.map (·.1))) text.toList
  have hnames : (other.map (·.1)).Perm (table.map (·.1)) := hp.map _
  have ho : (other.map (·.1)).Nodup := hnames.nodup_iff.2 h
  have hc' := cut_tokens_congr (fun _ => (hnames.mem_iff).symm) hc
  have hr : (replacements delimited other).Perm (replacements delimited table) := hp.map _
  rw [render_of_cut delimited ho hc', render_of_cut delimited h hc,
    valueOf_perm hr (words_replacements_nodup delimited ho)]

/-- A text has one cut into the tokens of a table and single characters, and its
items make up the text.  Any table with these names renders the text item by item
along this cut, and in whatever order its entries stand. -/
theorem render_leftmost_longest (delimited : Bool) (table : List (String × String))
    (text : String) (h : (table.map (·.1)).Nodup) :
    ∃ items : List (Item Char),
      (∀ items', Cut (tokens delimited (table.map (·.1))) text.toList items' ↔ items' = items) ∧
      items.flatMap Item.source = text.toList ∧
      (∀ other : List (String × String), (other.map (·.1)).Nodup →
        (∀ n, n ∈ other.map (·.1) ↔ n ∈ table.map (·.1)) →
        ∃ value, TokenValues delimited other value ∧
          render delimited other text = .ofList (rendering value items)) ∧
      ∀ other : List (String × String), other.Perm table →
        render delimited other text = render delimited table text := by
  obtain ⟨items, hc⟩ := Cut.exists (tokens delimited (table.map (·.1))) text.toList
  refine ⟨items, fun items' => ⟨fun hc' => hc'.unique hc, fun e => e ▸ hc⟩, hc.flatMap_source,
    fun other ho hnames => ?_, fun other hp => render_perm delimited h hp text⟩
  have hc' := cut_tokens_congr (fun n => (hnames n).symm) hc
  exact ⟨_, tokenValues_valueOf delimited ho, render_of_cut delimited ho hc'⟩

/-- Names that start or end other names, and the empty name. -/
theorem render_overlapping_names :
    ([("AB", "x"), ("", "-"), ("ABC", "AB"), ("BC", "y")].map Prod.fst).Nodup ∧
    ∃ items : List (Item Char),
      (∀ items', Cut (tokens false ["AB", "", "ABC", "BC"]) "ABCAB_BC".toList items' ↔
        items' = items) ∧
      items.flatMap Item.source = "ABCAB_BC".toList ∧
      (∀ other : List (String × String), (other.map (·.1)).Nodup →
        (∀ n, n ∈ other.map (·.1) ↔ n ∈ ["AB", "", "ABC", "BC"]) →
        ∃ value, TokenValues false other value ∧
          render false other "ABCAB_BC" = .ofList (rendering value items)) ∧
      ∀ other : List (String × String),
        other.Perm [("AB", "x"), ("", "-"), ("ABC", "AB"), ("BC", "y")] →
        render false other "ABCAB_BC" =
          render false [("AB", "x"), ("", "-"), ("ABC", "AB"), ("BC", "y")] "ABCAB_BC" :=
  ⟨by decide, render_leftmost_longest false
    [("AB", "x"), ("", "-"), ("ABC", "AB"), ("BC", "y")] "ABCAB_BC" (by decide)⟩

end ModBuild.Template
