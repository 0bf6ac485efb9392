import ModBuild.Template.Replace

/-!
# Cuts of a text into words and single items

Some words cut a text into items.  The text is scanned from the left: the longest
word, not empty, that starts at a place is an item, and where no such word starts
the single item of the text is one.  `Cut` is this scan as a relation between a
text and its items.  It says nothing of values or of an order of the words.

Every text has exactly one cut (`Cut.exists`, `Cut.unique`), the items of a cut
make up the text (`Cut.flatMap_source`), and the cut depends on the words as a
set only (`Cut.congr`).
-/

namespace ModBuild.Template

variable {α : Type}

/-- An item of a text that was cut. -/
inductive Item (α : Type) where
  /-- A word. -/
  | word (w : List α)
  /-- A single item of the text, which belongs to no word. -/
  | single (a : α)
deriving DecidableEq

/-- The part of the text that an item is. -/
def Item.source : Item α → List α
  | .word w => w
  | .single a => [a]

/-- Of some words, the longest that a text starts with, which is not empty. -/
structure Longest (words : List (List α)) (text w : List α) : Prop where
  /-- It is one of the words. -/
  mem : w ∈ words
  /-- It is not empty. -/
  ne_nil : w ≠ []
  /-- The text starts with it. -/
  starts : w <+: text
  /-- No other word that the text starts with is longer. -/
  longest : ∀ u ∈ words, u <+: text → u.length ≤ w.length

/-- No word that is not empty starts a text. -/
def NoneStarts (words : List (List α)) (text : List α) : Prop :=
  ∀ w ∈ words, w ≠ [] → ¬ w <+: text

/-- The items that some words cut a text into. -/
inductive Cut (words : List (List α)) : List α → List (Item α) → Prop where
  /-- The end of the text. -/
  | nil : Cut words [] []
  /-- The longest word that starts here, and what comes behind it. -/
  | word {w rest : List α} {items : List (Item α)} :
    Longest words (w ++ rest) w →
    Cut words rest items →
    Cut words (w ++ rest) (.word w :: items)
  /-- A single item where no word starts. -/
  | single {a : α} {rest : List α} {items : List (Item α)} :
    NoneStarts words (a :: rest) →
    Cut words rest items →
    Cut words (a :: rest) (.single a :: items)

/-! ## The longest word -/

/-- Two words of one length never compete. -/
theorem Longest.unique {words : List (List α)} {text w w' : List α}
    (h : Longest words text w) (h' : Longest words text w') : w = w' := by
  have hle : w.length ≤ w'.length := h'.longest w h.mem h.starts
  have hge : w'.length ≤ w.length := h.longest w' h'.mem h'.starts
  exact (List.prefix_of_prefix_length_le h.starts h'.starts hle).eq_of_length
    (Nat.le_antisymm hle hge)

theorem Longest.congr {words words' : List (List α)} (hw : ∀ w, w ∈ words ↔ w ∈ words')
    {text w : List α} (h : Longest words text w) : Longest words' text w where
  mem := (hw w).1 h.mem
  ne_nil := h.ne_nil
  starts := h.starts
  longest u hu := h.longest u ((hw u).2 hu)

theorem NoneStarts.not_longest {words : List (List α)} {text w : List α}
    (h : NoneStarts words text) : ¬ Longest words text w :=
  fun hl => h w hl.mem hl.ne_nil hl.starts

theorem NoneStarts.congr {words words' : List (List α)} (hw : ∀ w, w ∈ words ↔ w ∈ words')
    {text : List α} (h : NoneStarts words text) : NoneStarts words' text :=
  fun w hmem => h w ((hw w).2 hmem)

/-- Either a longest word starts a text or no word does. -/
theorem longest_or_noneStarts (words : List (List α)) (text : List α) :
    (∃ w, Longest words text w) ∨ NoneStarts words text := by
  by_cases h : NoneStarts words text
  · exact Or.inr h
  · left
    simp only [NoneStarts, Classical.not_forall, Classical.not_not] at h
    obtain ⟨u, hu, hne, hs⟩ := h
    -- The words that start the text have a longest one, as none is longer than the text.
    induction hk : text.length - u.length using Nat.strongRecOn generalizing u with
    | ind k ih =>
      by_cases hl : ∀ v ∈ words, v <+: text → v.length ≤ u.length
      · exact ⟨u, hu, hne, hs, hl⟩
      · simp only [Classical.not_forall, Nat.not_le] at hl
        obtain ⟨v, hv, hvs, hlt⟩ := hl
        have hle : v.length ≤ text.length := hvs.length_le
        have hvne : v ≠ [] := List.ne_nil_of_length_pos (by omega)
        exact ih (text.length - v.length) (by omega) v hv hvne hvs rfl

/-! ## Cuts -/

/-- The items make up the text. -/
theorem Cut.flatMap_source {words : List (List α)} {text : List α} {items : List (Item α)}
    (h : Cut words text items) : items.flatMap Item.source = text := by
  induction h with
  | nil => rfl
  | word _ _ ih => rw [List.flatMap_cons, ih, Item.source]
  | single _ _ ih => rw [List.flatMap_cons, ih, Item.source, List.singleton_append]

/-- Every text can be cut. -/
theorem Cut.exists (words : List (List α)) (text : List α) :
    ∃ items, Cut words text items := by
  induction hk : text.length using Nat.strongRecOn generalizing text with
  | ind k ih =>
    cases text with
    | nil => exact ⟨[], .nil⟩
    | cons a rest =>
      rcases longest_or_noneStarts words (a :: rest) with ⟨w, hw⟩ | hn
      · obtain ⟨behind, hb⟩ := hw.starts
        have hpos : 0 < w.length := List.length_pos_iff.2 hw.ne_nil
        have hlen : w.length + behind.length = k := by rw [← List.length_append, hb, hk]
        obtain ⟨items, hi⟩ := ih behind.length (by omega) behind rfl
        rw [← hb] at hw ⊢
        exact ⟨.word w :: items, .word hw hi⟩
      · obtain ⟨items, hi⟩ := ih rest.length (by simp [← hk]) rest rfl
        exact ⟨.single a :: items, .single hn hi⟩

/-- Where no word starts with any item of a part, the part is cut into single items. -/
theorem Cut.singles {words : List (List α)} {part rest : List α} {items : List (Item α)}
    (hn : ∀ a ∈ part, ∀ behind, NoneStarts words (a :: behind)) (h : Cut words rest items) :
    Cut words (part ++ rest) (part.map .single ++ items) := by
  induction part with
  | nil => exact h
  | cons a part ih =>
    exact .single (hn a List.mem_cons_self _)
      (ih fun b hb => hn b (List.mem_cons_of_mem a hb))

/-- Nothing is cut into nothing. -/
theorem Cut.of_nil {words : List (List α)} {items : List (Item α)} (h : Cut words [] items) :
    items = [] := by
  generalize ht : ([] : List α) = text at h
  cases h with
  | nil => rfl
  | word hl _ => exact absurd (List.append_eq_nil_iff.1 ht.symm).1 hl.ne_nil
  | single _ _ => cases ht

/-- What a cut starts with where a word starts. -/
theorem Cut.of_longest {words : List (List α)} {text w : List α} {items : List (Item α)}
    (h : Cut words text items) (hw : Longest words text w) :
    ∃ rest behind, text = w ++ rest ∧ items = .word w :: behind ∧ Cut words rest behind := by
  cases h with
  | nil => exact absurd (List.prefix_nil.1 hw.starts) hw.ne_nil
  | word hl hc =>
    cases hl.unique hw
    exact ⟨_, _, rfl, rfl, hc⟩
  | single hn _ => exact absurd hw hn.not_longest

/-- What a cut starts with where no word starts. -/
theorem Cut.of_noneStarts {words : List (List α)} {a : α} {rest : List α}
    {items : List (Item α)} (h : Cut words (a :: rest) items)
    (hn : NoneStarts words (a :: rest)) :
    ∃ behind, items = .single a :: behind ∧ Cut words rest behind := by
  generalize ht : a :: rest = text at h hn
  cases h with
  | nil => cases ht
  | word hl _ => exact absurd hl hn.not_longest
  | single _ hc =>
    cases ht
    exact ⟨_, rfl, hc⟩

/-- A text can be cut in one way only. -/
theorem Cut.unique {words : List (List α)} {text : List α} {items items' : List (Item α)}
    (h : Cut words text items) (h' : Cut words text items') : items = items' := by
  induction h generalizing items' with
  | nil => exact h'.of_nil.symm
  | word hl _ ih =>
    obtain ⟨rest, behind, ht, rfl, hc⟩ := h'.of_longest hl
    cases List.append_cancel_left ht
    rw [ih hc]
  | single hn _ ih =>
    obtain ⟨behind, rfl, hc⟩ := h'.of_noneStarts hn
    rw [ih hc]

/-- The cut does not depend on the order of the words. -/
theorem Cut.congr {words words' : List (List α)} (hw : ∀ w, w ∈ words ↔ w ∈ words')
    {text : List α} {items : List (Item α)} (h : Cut words text items) :
    Cut words' text items := by
  induction h with
  | nil => exact .nil
  | word hl _ ih => exact .word (hl.congr hw) ih
  | single hn _ ih => exact .single (hn.congr hw) ih

end ModBuild.Template
