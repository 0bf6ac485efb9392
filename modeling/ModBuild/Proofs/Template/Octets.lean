import ModBuild.Proofs.Template.Points
import ModBuild.Proofs.Template.Render

/-!
# Rendering octets

A template in UTF-8 is read as text, rendered and written again.  The octets could as
well be cut themselves, by the tokens as they are written.  Both come to the same: the
items of the octets are those of the text, with every single character taken apart into
its octets (`Cut.encoded`).  So no token is found across the border of a character, and
the longest token in characters is the longest in octets (`longest_encode_iff`).

Octets that are no UTF-8 are not rendered at all (`renderOctets_utf8`).
-/

namespace ModBuild.Template

open Encoding.Utf8

/-! ## The items of octets -/

/-- The items of octets that an item of a text is written as. -/
def Item.encoded : Item Char → List (Item UInt8)
  | .word w => [.word (encode w)]
  | .single c => (encodeChar c).map .single

/-- What an item is replaced by.  A single item stays as it is. -/
def Item.replaced {α : Type} (value : List α → List α) : Item α → List α
  | .word w => value w
  | .single a => [a]

section Encoded

variable {words : List (List Char)} {text w : List Char}

theorem longest_encode_iff :
    Longest (words.map encode) (encode text) (encode w) ↔ Longest words text w := by
  constructor
  · intro h
    obtain ⟨u, hu, he⟩ := List.mem_map.1 h.mem
    obtain rfl : u = w := encode_injective he
    refine ⟨hu, fun hnil => h.ne_nil (by rw [hnil]; rfl), encode_prefix_iff.1 h.starts,
      fun v hv hs => ?_⟩
    have hle := h.longest (encode v) (List.mem_map_of_mem hv) (encode_prefix_iff.2 hs)
    have hp := List.prefix_of_prefix_length_le (encode_prefix_iff.2 hs) h.starts hle
    exact (encode_prefix_iff.1 hp).length_le
  · intro h
    refine ⟨List.mem_map_of_mem h.mem, fun hnil => h.ne_nil (encode_eq_nil_iff.1 hnil),
      encode_prefix_iff.2 h.starts, fun o ho hs => ?_⟩
    obtain ⟨v, hv, rfl⟩ := List.mem_map.1 ho
    have hs := encode_prefix_iff.1 hs
    have hp := List.prefix_of_prefix_length_le hs h.starts (h.longest v hv hs)
    exact (encode_prefix_iff.2 hp).length_le

theorem NoneStarts.encoded (h : NoneStarts words text) :
    NoneStarts (words.map encode) (encode text) := by
  intro o ho hne hs
  obtain ⟨v, hv, rfl⟩ := List.mem_map.1 ho
  exact h v hv (fun hnil => hne (by rw [hnil]; rfl)) (encode_prefix_iff.1 hs)

/-- No word starts inside a character. -/
theorem noneStarts_tail {t : UInt8} (ht : IsTail t) (rest : List UInt8) :
    NoneStarts (words.map encode) (t :: rest) := by
  intro o ho hne
  obtain ⟨v, -, rfl⟩ := List.mem_map.1 ho
  exact not_encode_prefix_tail (fun hnil => hne (by rw [hnil]; rfl)) ht rest

/-- The written words cut the written text as the words cut the text. -/
theorem Cut.encoded {items : List (Item Char)} (h : Cut words text items) :
    Cut (words.map encode) (encode text) (items.flatMap Item.encoded) := by
  induction h with
  | nil => exact .nil
  | word hl _ ih =>
    rw [encode_append]
    refine .word ?_ ih
    rw [← encode_append]
    exact longest_encode_iff.2 hl
  | @single c rest items hn _ ih =>
    obtain ⟨b, bs, hb, -, hbs⟩ := encodeChar_lead c
    have hnone := hn.encoded
    rw [encode_cons, hb, List.cons_append] at hnone ⊢
    rw [List.flatMap_cons, Item.encoded, hb, List.map_cons, List.cons_append]
    exact .single hnone (ih.singles fun t ht => noneStarts_tail (hbs t ht))

end Encoded

/-! ## Words among the items -/

theorem Cut.mem_of_word {α : Type} {words : List (List α)} {text w : List α}
    {items : List (Item α)} (h : Cut words text items) (hw : .word w ∈ items) : w ∈ words := by
  induction h with
  | nil => cases hw
  | word hl _ ih =>
    rcases List.mem_cons.1 hw with he | hw
    · cases he
      exact hl.mem
    · exact ih hw
  | single _ _ ih =>
    rcases List.mem_cons.1 hw with he | hw
    · cases he
    · exact ih hw

/-- A word among the items is the longest that starts behind the items before it. -/
theorem Cut.longest_of_split {α : Type} {words : List (List α)} {text w : List α}
    {before after : List (Item α)} (h : Cut words text (before ++ .word w :: after)) :
    ∃ behind, text = before.flatMap Item.source ++ (w ++ behind) ∧
      Longest words (w ++ behind) w := by
  generalize hi : before ++ .word w :: after = items at h
  induction h generalizing before with
  | nil => simp at hi
  | @word u rest items hl _ ih =>
    cases before with
    | nil =>
      cases hi
      exact ⟨rest, rfl, hl⟩
    | cons i before =>
      cases hi
      obtain ⟨behind, rfl, hw⟩ := ih rfl
      exact ⟨behind, by simp [Item.source], hw⟩
  | @single c rest items _ _ ih =>
    cases before with
    | nil => cases hi
    | cons i before =>
      cases hi
      obtain ⟨behind, rfl, hw⟩ := ih rfl
      exact ⟨behind, by simp [Item.source], hw⟩

/-- A word stands behind the single items in front. -/
theorem split_singles {α : Type} {singles : List α} {rest before after : List (Item α)}
    {w : List α} (h : singles.map .single ++ rest = before ++ .word w :: after) :
    ∃ between, before = singles.map .single ++ between ∧ rest = between ++ .word w :: after := by
  induction singles generalizing before with
  | nil => exact ⟨before, rfl, h⟩
  | cons a singles ih =>
    cases before with
    | nil => cases h
    | cons i before =>
      obtain ⟨hi, hrest⟩ := List.cons_eq_cons.1 h
      obtain ⟨between, rfl, rfl⟩ := ih hrest
      exact ⟨between, by rw [← hi]; rfl, rfl⟩

/-- A word among the items of octets comes from a word among the items of the text. -/
theorem split_encoded {items : List (Item Char)} {before after : List (Item UInt8)}
    {o : List UInt8} (h : items.flatMap Item.encoded = before ++ .word o :: after) :
    ∃ before' w after', items = before' ++ .word w :: after' ∧
      before = before'.flatMap Item.encoded ∧ o = encode w := by
  induction items generalizing before with
  | nil => simp at h
  | cons i items ih =>
    rw [List.flatMap_cons] at h
    cases i with
    | word u =>
      cases before with
      | nil =>
        cases h
        exact ⟨[], u, items, rfl, rfl, rfl⟩
      | cons j before =>
        obtain ⟨rfl, hrest⟩ := List.cons_eq_cons.1 h
        obtain ⟨before', w, after', rfl, rfl, rfl⟩ := ih hrest
        exact ⟨.word u :: before', w, after', rfl, rfl, rfl⟩
    | single c =>
      obtain ⟨between, rfl, hrest⟩ := split_singles h
      obtain ⟨before', w, after', rfl, rfl, rfl⟩ := ih hrest
      exact ⟨.single c :: before', w, after', rfl, rfl, rfl⟩

theorem flatMap_source_encoded (items : List (Item Char)) :
    (items.flatMap Item.encoded).flatMap Item.source = encode (items.flatMap Item.source) := by
  induction items with
  | nil => rfl
  | cons i items ih =>
    rw [List.flatMap_cons, List.flatMap_append, ih, List.flatMap_cons, encode_append]
    congr 1
    cases i with
    | word w => simp [Item.encoded, Item.source]
    | single c => simp [Item.encoded, Item.source, encode, List.flatMap_map]

/-! ## Values -/

/-- The words and values of a table as they are written. -/
def octetReplacements (delimited : Bool) (table : List (String × String)) :
    List (Replacement UInt8) :=
  (replacements delimited table).map fun r => ⟨encode r.word, encode r.value⟩

variable {delimited : Bool} {table : List (String × String)}

theorem words_octetReplacements_nodup (h : (table.map (·.1)).Nodup) :
    (words (octetReplacements delimited table)).Nodup := by
  have he : words (octetReplacements delimited table) =
      (words (replacements delimited table)).map encode := by
    simp [words, octetReplacements]
  rw [he]
  exact List.Pairwise.map encode (fun _ _ hne hw => hne (encode_injective hw))
    (words_replacements_nodup delimited h)

/-- The written value of a token is the value of the written token. -/
theorem valueOf_encode (h : (table.map (·.1)).Nodup) {w : List Char}
    (hw : w ∈ tokens delimited (table.map (·.1))) :
    valueOf (octetReplacements delimited table) (encode w) =
      encode (valueOf (replacements delimited table) w) := by
  rw [← words_replacements] at hw
  obtain ⟨r, hr, rfl⟩ := List.mem_map.1 hw
  rw [valueOf_of_mem (words_replacements_nodup delimited h) hr]
  exact valueOf_of_mem (words_octetReplacements_nodup h)
    (r := ⟨encode r.word, encode r.value⟩) (List.mem_map_of_mem hr)

/-- Without an empty token, what the items of a text are rendered to is written as the
items of the octets are replaced. -/
theorem replaced_encoded (h : (table.map (·.1)).Nodup)
    (he : [] ∉ tokens delimited (table.map (·.1))) {items : List (Item Char)}
    (hi : ∀ w, .word w ∈ items → w ∈ tokens delimited (table.map (·.1))) :
    (items.flatMap Item.encoded).flatMap
        (Item.replaced (valueOf (octetReplacements delimited table))) =
      encode (rendering (valueOf (replacements delimited table)) items) := by
  have hnil : valueOf (replacements delimited table) [] = [] :=
    (tokenValues_valueOf delimited h).of_no_empty he
  rw [rendering, hnil, List.append_nil]
  induction items with
  | nil => rfl
  | cons i items ih =>
    rw [List.flatMap_cons, List.flatMap_append, List.flatMap_cons, encode_append,
      ih fun w hw => hi w (List.mem_cons_of_mem i hw)]
    congr 1
    cases i with
    | word w =>
      rw [Item.rendered, ← valueOf_encode h (hi w List.mem_cons_self)]
      simp [Item.encoded, Item.replaced]
    | single c => simp [Item.encoded, Item.replaced, Item.rendered, hnil, encode, List.flatMap_map]

/-! ## Rendering -/

/-- Octets in UTF-8 are rendered as if they were cut themselves by the tokens as they are
written: there is one such cut, its words are replaced by the values as they are written,
and every other octet stays.  A word of the cut is a token where the text is cut into
characters, and it is the longest there too.  Octets that are no UTF-8 are not
rendered. -/
theorem renderOctets_utf8 (delimited : Bool) (table : List (String × String))
    (octets : List UInt8) (h : (table.map (·.1)).Nodup)
    (he : [] ∉ tokens delimited (table.map (·.1))) :
    (octets.toByteArray.IsValidUTF8 →
      ∃ (text : List Char) (items : List (Item UInt8)) (value : List UInt8 → List UInt8),
        encode text = octets ∧
        (∀ v ∈ table, value (encode (token delimited v.1)) = encode v.2.toList) ∧
        (∀ items', Cut ((tokens delimited (table.map (·.1))).map encode) octets items' ↔
          items' = items) ∧
        renderOctets .utf8 delimited table octets =
          .ok (items.flatMap (Item.replaced value)) ∧
        ∀ before o after, items = before ++ .word o :: after →
          ∃ prior w behind, text = prior ++ (w ++ behind) ∧
            before.flatMap Item.source = encode prior ∧ o = encode w ∧
            Longest (tokens delimited (table.map (·.1))) (w ++ behind) w) ∧
    (¬ octets.toByteArray.IsValidUTF8 →
      ∃ e, renderOctets .utf8 delimited table octets = .error (.decode e)) := by
  constructor
  · intro hvalid
    obtain ⟨text, rfl⟩ := isValidUTF8_iff.1 hvalid
    obtain ⟨items, hc⟩ := Cut.exists (tokens delimited (table.map (·.1))) text
    have hrender : renderChars delimited table text =
        rendering (valueOf (replacements delimited table)) items := by
      rw [← words_replacements] at hc
      exact replace_of_cut (words_replacements_nodup delimited h) hc
    refine ⟨text, items.flatMap Item.encoded, valueOf (octetReplacements delimited table), rfl,
      fun v hv => ?_, fun items' => ⟨fun hc' => hc'.unique hc.encoded, fun hi => hi ▸ hc.encoded⟩,
      ?_, fun before o after hi => ?_⟩
    · have hmem : token delimited v.1 ∈ tokens delimited (table.map (·.1)) :=
        List.mem_map_of_mem (List.mem_map_of_mem hv)
      rw [valueOf_encode h hmem, (tokenValues_valueOf delimited h).of_mem v hv]
    · rw [replaced_encoded h he fun w => hc.mem_of_word, ← hrender,
        renderOctets_of_decode (decode_eq_ok_iff.2 rfl)]
    · obtain ⟨before', w, after', rfl, rfl, rfl⟩ := split_encoded hi
      obtain ⟨behind, rfl, hw⟩ := hc.longest_of_split
      exact ⟨_, w, behind, rfl, flatMap_source_encoded before', rfl, hw⟩
  · intro hvalid
    cases hd : decode octets with
    | error e => exact ⟨e, renderOctets_of_decode_error hd⟩
    | ok text => exact absurd (isValidUTF8_iff.2 ⟨text, decode_eq_ok_iff.1 hd⟩) hvalid

/-- Tokens and values of several octets per character. -/
theorem renderOctets_utf8_accents :
    ([("é", "ü"), ("éa", "€"), ("a", "\n")].map Prod.fst).Nodup ∧
    [] ∉ tokens false (["é", "éa", "a"]) ∧
    ∃ (items : List (Item UInt8)) (value : List UInt8 → List UInt8),
      (∀ items', Cut ((tokens false ["é", "éa", "a"]).map encode) "éaè\r\né".toUTF8.toList items' ↔
        items' = items) ∧
      renderOctets .utf8 false [("é", "ü"), ("éa", "€"), ("a", "\n")] "éaè\r\né".toUTF8.toList =
        .ok (items.flatMap (Item.replaced value)) := by
  have hvalid : ("éaè\r\né".toUTF8.toList).toByteArray.IsValidUTF8 :=
    isValidUTF8_iff.2 ⟨"éaè\r\né".toList, by decide +kernel⟩
  obtain ⟨-, items, value, -, -, hcut, hrender, -⟩ := (renderOctets_utf8 false
    [("é", "ü"), ("éa", "€"), ("a", "\n")] "éaè\r\né".toUTF8.toList (by decide)
    (by decide +kernel)).1 hvalid
  exact ⟨by decide, by decide +kernel, items, value, hcut, hrender⟩

end ModBuild.Template
