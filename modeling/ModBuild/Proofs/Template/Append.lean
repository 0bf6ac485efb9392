import ModBuild.Proofs.Template.Render
import ModBuild.Proofs.Text.Line
import ModBuild.Proofs.Variables.Table

/-!
# Rendering part by part

A text cannot be rendered part by part in general.  A token may lie across the border of
two parts (`Straddles`), and the scan that takes it finds other items on either side.
Where no token does, the items of the whole are those of the parts (`Cut.append`).

The names in the table of a build hold no line break.  So no token lies across the end of
a line, and a template is rendered line by line (`render_parts`), whatever ends a line.
-/

namespace ModBuild.Template

/-! ## The border of two texts -/

section Border

variable {α : Type} {words : List (List α)} {a b w : List α}

/-- A word lies across the border of two texts: it starts inside the first and ends inside
the second. -/
def Straddles (w a b : List α) : Prop :=
  ∃ n < a.length, a.length < n + w.length ∧ w <+: (a ++ b).drop n

instance [DecidableEq α] (w a b : List α) : Decidable (Straddles w a b) :=
  inferInstanceAs (Decidable (∃ n < _, _))

/-- What stands before the first text does not matter. -/
theorem Straddles.append_left (h : Straddles w a b) (c : List α) : Straddles w (c ++ a) b := by
  obtain ⟨n, hn, hlong, hstart⟩ := h
  refine ⟨c.length + n, by simp [hn], by simp; omega, ?_⟩
  rwa [List.append_assoc, ← List.drop_drop, List.drop_left]

/-- A word that starts with the first text and does not lie across its end is found in it. -/
theorem prefix_of_not_straddles (hs : ¬ Straddles w a b) (ha : a ≠ []) (hw : w <+: a ++ b) :
    w <+: a := by
  have hle : w.length ≤ a.length := by
    refine Nat.not_lt.1 fun hlt => hs ⟨0, List.length_pos_iff.2 ha, ?_, hw⟩
    omega
  exact List.prefix_of_prefix_length_le hw (List.prefix_append a b) hle

theorem Longest.append (hs : ∀ u ∈ words, ¬ Straddles u a b) (h : Longest words a w) :
    Longest words (a ++ b) w where
  mem := h.mem
  ne_nil := h.ne_nil
  starts := h.starts.trans (List.prefix_append a b)
  longest u hu hstart := by
    have ha : a ≠ [] := fun he => h.ne_nil (List.prefix_nil.1 (he ▸ h.starts))
    exact h.longest u hu (prefix_of_not_straddles (hs u hu) ha hstart)

theorem NoneStarts.append (hs : ∀ u ∈ words, ¬ Straddles u a b) (ha : a ≠ [])
    (h : NoneStarts words a) : NoneStarts words (a ++ b) :=
  fun u hu hne hstart => h u hu hne (prefix_of_not_straddles (hs u hu) ha hstart)

/-- Where no word lies across the border, the items of two texts are those of the whole.
The scan of the whole stands at the border when it has read the first text. -/
theorem Cut.append {items items' : List (Item α)} (hs : ∀ u ∈ words, ¬ Straddles u a b)
    (h : Cut words a items) (h' : Cut words b items') :
    Cut words (a ++ b) (items ++ items') := by
  induction h with
  | nil => exact h'
  | @word w rest items hl _ ih =>
    have hrest : ∀ u ∈ words, ¬ Straddles u rest b := fun u hu hu' =>
      hs u hu (hu'.append_left w)
    have hlong := hl.append hs
    rw [List.append_assoc] at hlong ⊢
    exact .word hlong (ih hrest)
  | @single c rest items hn _ ih =>
    have hrest : ∀ u ∈ words, ¬ Straddles u rest b := fun u hu hu' =>
      hs u hu (hu'.append_left [c])
    exact .single (hn.append hs (List.cons_ne_nil c rest)) (ih hrest)

end Border

/-- Without a value for the empty word, the items are rendered one after the other. -/
theorem rendering_append {value : List Char → List Char} (h : value [] = [])
    (items items' : List (Item Char)) :
    rendering value (items ++ items') = rendering value items ++ rendering value items' := by
  simp [rendering, h]

section Table

variable {delimited : Bool} {table : List (String × String)}

theorem renderChars_nil (h : (table.map (·.1)).Nodup)
    (he : [] ∉ tokens delimited (table.map (·.1))) : renderChars delimited table [] = [] := by
  have hc : Cut (words (replacements delimited table)) [] [] := .nil
  rw [renderChars, replace_of_cut (words_replacements_nodup delimited h) hc]
  exact (tokenValues_valueOf delimited h).of_no_empty he

/-- Where no token lies across the border, two texts are rendered one after the other. -/
theorem renderChars_append (h : (table.map (·.1)).Nodup)
    (he : [] ∉ tokens delimited (table.map (·.1))) {a b : List Char}
    (hs : ∀ w ∈ tokens delimited (table.map (·.1)), ¬ Straddles w a b) :
    renderChars delimited table (a ++ b) =
      renderChars delimited table a ++ renderChars delimited table b := by
  have hn := words_replacements_nodup delimited h
  have hnil := (tokenValues_valueOf delimited h).of_no_empty he
  rw [← words_replacements] at hs
  obtain ⟨items, hc⟩ := Cut.exists (words (replacements delimited table)) a
  obtain ⟨items', hc'⟩ := Cut.exists (words (replacements delimited table)) b
  simp only [renderChars]
  rw [replace_of_cut hn (hc.append hs hc'), replace_of_cut hn hc, replace_of_cut hn hc',
    rendering_append hnil]

end Table

/-! ## The end of a line -/

open Text (isLineBreak EndsLine brokenLines)

/-- A word without line breaks does not lie across the end of a line. -/
theorem not_straddles_of_endsLine {w a b : List Char} (hw : ∀ c ∈ w, isLineBreak c = false)
    (ha : EndsLine a) : ¬ Straddles w a b := by
  rintro ⟨n, hn, hlong, hstart⟩
  obtain ⟨before, c, rfl, hc⟩ := ha
  simp only [List.length_append, List.length_singleton] at hn hlong
  -- The word starts at or before the line break, and goes on behind it.
  have hdrop : (before ++ [c] ++ b).drop n = before.drop n ++ [c] ++ b := by
    rw [List.append_assoc, List.drop_append_of_le_length (by omega), List.append_assoc]
  rw [hdrop] at hstart
  have hbreak : before.drop n ++ [c] <+: w :=
    List.prefix_of_prefix_length_le (List.prefix_append _ b) hstart (by simp; omega)
  have hmem : c ∈ w := hbreak.subset (by simp)
  rw [hw c hmem] at hc
  cases hc

section Lines

open Variables

variable {delimited : Bool} {t : Table} {w : List Char}

theorem schema_oneLine (dialect : Dialect) (atHand : Bool) :
    ∀ n ∈ schema dialect atHand, n.toList ≠ [] ∧ ∀ c ∈ n.toList, isLineBreak c = false := by
  have hall : (schema dialect atHand).all (fun n =>
      !n.toList.isEmpty && n.toList.all fun c => !isLineBreak c) = true := by
    cases dialect <;> cases atHand <;> decide +kernel
  simpa using hall

/-- A token of a table of a build is not empty and holds no line break. -/
theorem token_oneLine (h : w ∈ tokens delimited (t.entries.map (·.1))) :
    w ≠ [] ∧ ∀ c ∈ w, isLineBreak c = false := by
  obtain ⟨n, hn, rfl⟩ := List.mem_map.1 h
  obtain ⟨hne, hline⟩ := schema_oneLine _ _ n ((t.complete n).1 hn)
  have hmark : isLineBreak '#' = false := by decide
  cases delimited with
  | false => exact ⟨hne, hline⟩
  | true =>
    refine ⟨List.cons_ne_nil _ _, fun c hc => ?_⟩
    simp only [token, enclosed, if_true, List.mem_cons, List.mem_append, List.not_mem_nil, or_false] at hc
    rcases hc with rfl | hc | rfl
    · exact hmark
    · exact hline c hc
    · exact hmark

theorem nil_not_mem_tokens (delimited : Bool) (t : Table) :
    [] ∉ tokens delimited (t.entries.map (·.1)) :=
  fun h => (token_oneLine h).1 rfl

/-- A table of a build renders a text part by part if all parts but the last end a line. -/
theorem renderChars_flatten (delimited : Bool) (t : Table) {parts : List (List Char)}
    (h : ∀ p ∈ parts.dropLast, EndsLine p) :
    renderChars delimited t.entries parts.flatten =
      parts.flatMap (renderChars delimited t.entries) := by
  induction parts with
  | nil => exact renderChars_nil t.nodup (nil_not_mem_tokens delimited t)
  | cons p ps ih =>
    cases ps with
    | nil => simp
    | cons q qs =>
      rw [List.dropLast_cons_of_ne_nil (List.cons_ne_nil q qs)] at h
      have hp : EndsLine p := h p List.mem_cons_self
      have hborder : ∀ w ∈ tokens delimited (t.entries.map (·.1)),
          ¬ Straddles w p (q :: qs).flatten := fun w hw =>
        not_straddles_of_endsLine (token_oneLine hw).2 hp
      rw [List.flatten_cons, List.flatMap_cons,
        renderChars_append t.nodup (nil_not_mem_tokens delimited t) hborder,
        ih fun r hr => h r (List.mem_cons_of_mem p hr)]

/-- The same for texts. -/
theorem render_join (delimited : Bool) (t : Table) {parts : List String}
    (h : ∀ p ∈ parts.dropLast, EndsLine p.toList) :
    render delimited t.entries (String.join parts) =
      String.join (parts.map (render delimited t.entries)) := by
  have hends : ∀ p ∈ (parts.map String.toList).dropLast, EndsLine p := by
    rw [← List.map_dropLast]
    intro p hp
    obtain ⟨q, hq, rfl⟩ := List.mem_map.1 hp
    exact h q hq
  apply String.toList_inj.1
  rw [render, String.toList_ofList, String.toList_join, String.toList_join,
    List.flatMap_def, renderChars_flatten delimited t hends, List.flatMap_map, List.flatMap_map]
  simp only [render, String.toList_ofList]

theorem join_brokenLines (text : String) :
    String.join ((brokenLines text.toList).map .ofList) = text := by
  apply String.toList_inj.1
  rw [String.toList_join, List.flatMap_map]
  simp only [String.toList_ofList]
  rw [List.flatMap_id', Text.flatten_brokenLines]

end Lines

open Variables in
/-- Two texts are rendered one after the other if no token lies across their border and
no token is empty.  So the table of a build renders a template line by line.  Any parts
will do that end lines, but for the last: the parts between any of its line breaks, and in
particular its lines with their breaks. -/
theorem render_parts :
    (∀ (delimited : Bool) (table : List (String × String)) (a b : String),
      (table.map (·.1)).Nodup → [] ∉ tokens delimited (table.map (·.1)) →
      (∀ w ∈ tokens delimited (table.map (·.1)), ¬ Straddles w a.toList b.toList) →
      render delimited table (a ++ b) = render delimited table a ++ render delimited table b) ∧
    ∀ (t : Table) (delimited : Bool),
      (∀ parts : List String, (∀ p ∈ parts.dropLast, EndsLine p.toList) →
        render delimited t.entries (String.join parts) =
          String.join (parts.map (render delimited t.entries))) ∧
      ∀ text : String, render delimited t.entries text =
        String.join ((brokenLines text.toList).map fun l =>
          render delimited t.entries (.ofList l)) := by
  refine ⟨fun delimited table a b h he hs => ?_, fun t delimited =>
    ⟨fun parts => render_join delimited t, fun text => ?_⟩⟩
  · rw [render, String.toList_append, renderChars_append h he hs, String.ofList_append]
    rfl
  · have hends : ∀ p ∈ ((brokenLines text.toList).map String.ofList).dropLast,
        EndsLine p.toList := by
      rw [← List.map_dropLast]
      intro p hp
      obtain ⟨l, hl, rfl⟩ := List.mem_map.1 hp
      rw [String.toList_ofList]
      exact Text.endsLine_of_mem_brokenLines hl
    have hjoin := render_join delimited t hends
    rw [join_brokenLines, List.map_map] at hjoin
    exact hjoin

open Variables in
/-- Names that start other names beside the border, and lines that end in two ways. -/
theorem render_parts_beside :
    ([("AB", "x"), ("ABC", "y"), ("CA", "z")].map Prod.fst).Nodup ∧
    [] ∉ tokens false ["AB", "ABC", "CA"] ∧
    (∀ w ∈ tokens false ["AB", "ABC", "CA"], ¬ Straddles w "CABC".toList "CAB".toList) ∧
    render false [("AB", "x"), ("ABC", "y"), ("CA", "z")] ("CABC" ++ "CAB") =
      render false [("AB", "x"), ("ABC", "y"), ("CA", "z")] "CABC" ++
        render false [("AB", "x"), ("ABC", "y"), ("CA", "z")] "CAB" ∧
    ∃ t : Table, t.entries = (schema .legacy true).map (fun n => (n, "#ID#")) ∧
      (∀ p ∈ ["#ID#\r", "\n#NAME#\x0c"], EndsLine p.toList) ∧
      render true t.entries (String.join ["#ID#\r", "\n#NAME#\x0c", "#ID#"]) =
        String.join (["#ID#\r", "\n#NAME#\x0c", "#ID#"].map (render true t.entries)) := by
  have hborder : ∀ w ∈ tokens false ["AB", "ABC", "CA"],
      ¬ Straddles w "CABC".toList "CAB".toList := by
    decide +kernel
  have hnames : names ((schema .legacy true).map (fun n => (n, "#ID#"))) = schema .legacy true := by
    decide +kernel
  obtain ⟨t, -, ht⟩ := Table.ofEntries_of_schema hnames
  have hends : ∀ p ∈ ["#ID#\r", "\n#NAME#\x0c"], EndsLine p.toList := by
    simp only [List.forall_mem_cons, List.not_mem_nil, false_imp_iff, implies_true, and_true]
    exact ⟨⟨"#ID#".toList, '\r', by decide, by decide⟩,
      ⟨"\n#NAME#".toList, '\x0c', by decide, by decide⟩⟩
  exact ⟨by decide, by decide +kernel, hborder,
    render_parts.1 false [("AB", "x"), ("ABC", "y"), ("CA", "z")] "CABC" "CAB" (by decide)
      (by decide +kernel) hborder,
    t, ht, hends, (render_parts.2 t true).1 ["#ID#\r", "\n#NAME#\x0c", "#ID#"] hends⟩

end ModBuild.Template
