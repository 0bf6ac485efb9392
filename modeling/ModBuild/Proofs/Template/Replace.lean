import Mathlib.Data.List.Find
import ModBuild.Proofs.Template.Cut

/-!
# Replacement follows the cut

`replace` tries the words one after the other, the longest first.  What it writes
is told by the cut of the text: the value of every word, and every single item
with the value of the empty word before it (`replace_of_cut`).  For this the
words must be distinct.  Two of one length never start the same text then, so
that their order does not matter.
-/

namespace ModBuild.Template

variable {α : Type} [DecidableEq α]

/-- The words of some replacements. -/
def words (rs : List (Replacement α)) : List (List α) :=
  rs.map (·.word)

/-- The value of a word, or nothing. -/
def valueOf (rs : List (Replacement α)) (w : List α) : List α :=
  ((rs.find? fun r => r.word = w).map (·.value)).getD []

/-- What is written for an item.  The value of the empty word stands before a
single item. -/
def Item.rendered (value : List α → List α) : Item α → List α
  | .word w => value w
  | .single a => value [] ++ [a]

/-- What is written for all items of a text. -/
def rendering (value : List α → List α) (items : List (Item α)) : List α :=
  items.flatMap (Item.rendered value) ++ value []

/-! ## The order of the words -/

/-- No word is longer than one before it. -/
def LongestFirst (rs : List (Replacement α)) : Prop :=
  rs.Pairwise fun r s => s.word.length ≤ r.word.length

omit [DecidableEq α] in
theorem insertByLength_perm (r : Replacement α) (rs : List (Replacement α)) :
    (r.insertByLength rs).Perm (r :: rs) := by
  induction rs with
  | nil => exact .refl _
  | cons s ss ih =>
    rw [Replacement.insertByLength]
    split
    · exact .refl _
    · exact (ih.cons s).trans (.swap r s ss)

omit [DecidableEq α] in
theorem longestFirst_perm (rs : List (Replacement α)) : (longestFirst rs).Perm rs := by
  induction rs with
  | nil => exact .refl _
  | cons r rs ih => exact (insertByLength_perm r _).trans (ih.cons r)

omit [DecidableEq α] in
theorem LongestFirst.insertByLength (r : Replacement α) {rs : List (Replacement α)}
    (h : LongestFirst rs) : LongestFirst (r.insertByLength rs) := by
  induction rs with
  | nil => exact List.pairwise_singleton _ r
  | cons s ss ih =>
    obtain ⟨hs, hss⟩ := List.pairwise_cons.1 h
    rw [Replacement.insertByLength]
    split
    · next hle =>
      refine List.pairwise_cons.2 ⟨fun t ht => ?_, h⟩
      rcases List.mem_cons.1 ht with rfl | ht
      · exact hle
      · exact Nat.le_trans (hs t ht) hle
    · next hlt =>
      refine List.pairwise_cons.2 ⟨fun t ht => ?_, ih hss⟩
      rcases List.mem_cons.1 ((insertByLength_perm r ss).mem_iff.1 ht) with rfl | ht
      · omega
      · exact hs t ht

omit [DecidableEq α] in
theorem longestFirst_longestFirst (rs : List (Replacement α)) :
    LongestFirst (longestFirst rs) := by
  induction rs with
  | nil => exact .nil
  | cons r rs ih => exact ih.insertByLength r

/-! ## Values -/

/-- Of distinct words each has its own value. -/
theorem valueOf_of_mem {rs : List (Replacement α)} (hn : (words rs).Nodup) {r : Replacement α}
    (hr : r ∈ rs) : valueOf rs r.word = r.value := by
  induction rs with
  | nil => cases hr
  | cons s ss ih =>
    obtain ⟨hs, hss⟩ := List.nodup_cons.1 hn
    rcases List.mem_cons.1 hr with rfl | hr
    · simp [valueOf]
    · have hne : s.word ≠ r.word := fun e => hs (List.mem_map.2 ⟨r, hr, e.symm⟩)
      rw [← ih hss hr]
      simp [valueOf, hne]

theorem valueOf_of_not_mem {rs : List (Replacement α)} {w : List α} (hw : w ∉ words rs) :
    valueOf rs w = [] := by
  have hnone : rs.find? (fun r => r.word = w) = none := by
    rw [List.find?_eq_none]
    intro r hr he
    exact hw (of_decide_eq_true he ▸ List.mem_map_of_mem hr)
  rw [valueOf, hnone]
  rfl

/-- The order of distinct words does not change their values. -/
theorem valueOf_perm {rs rs' : List (Replacement α)} (hp : rs.Perm rs')
    (hn : (words rs).Nodup) : valueOf rs = valueOf rs' := by
  funext w
  have hn' : (words rs').Nodup := (hp.map _).nodup_iff.1 hn
  by_cases hw : w ∈ words rs
  · obtain ⟨r, hr, rfl⟩ := List.mem_map.1 hw
    rw [valueOf_of_mem hn hr, valueOf_of_mem hn' (hp.mem_iff.1 hr)]
  · have hw' : w ∉ words rs' := fun h => hw ((hp.map _).mem_iff.2 h)
    rw [valueOf_of_not_mem hw, valueOf_of_not_mem hw']

/-! ## What is taken at a place -/

theorem firstAt?_false (rs : List (Replacement α)) (text : List α) :
    firstAt? rs false text = rs.find? fun r => r.word.isPrefixOf text := by
  simp [firstAt?]

/-- At every place where words start, the one that is taken is the longest. -/
def TakesLongest (rs : List (Replacement α)) : Prop :=
  ∀ text w, Longest (words rs) text w → ∃ r ∈ rs, takenAt rs text = [r] ∧ r.word = w

theorem exists_firstAt? {rs : List (Replacement α)} {text w : List α}
    (h : Longest (words rs) text w) : ∃ r, firstAt? rs false text = some r := by
  obtain ⟨r, hr, rfl⟩ := List.mem_map.1 h.mem
  rw [← Option.isSome_iff_exists, firstAt?_false, List.find?_isSome]
  exact ⟨r, hr, List.isPrefixOf_iff_prefix.2 h.starts⟩

theorem takenAt_of_firstAt? {rs : List (Replacement α)} {text : List α} {r : Replacement α}
    (h : firstAt? rs false text = some r) (hne : r.word ≠ []) : takenAt rs text = [r] := by
  rw [takenAt, h]
  simp [hne]

/-- The first word in order that starts a text is the longest. -/
theorem LongestFirst.takesLongest {rs : List (Replacement α)} (ho : LongestFirst rs) :
    TakesLongest rs := by
  intro text w h
  obtain ⟨r₀, hr₀, rfl⟩ := List.mem_map.1 h.mem
  obtain ⟨r, hr⟩ := exists_firstAt? h
  have hr' := hr
  rw [firstAt?_false, List.find?_eq_some_iff_append] at hr'
  obtain ⟨hstart, before, behind, rfl, hbefore⟩ := hr'
  have hstart : r.word <+: text := List.isPrefixOf_iff_prefix.1 hstart
  -- `r₀` starts the text, so it does not stand before `r` and is not longer.
  have hle : r₀.word.length ≤ r.word.length := by
    rcases List.mem_append.1 hr₀ with hb | hb
    · have := hbefore r₀ hb
      simp [List.isPrefixOf_iff_prefix.2 h.starts] at this
    · rcases List.mem_cons.1 hb with rfl | hb
      · exact Nat.le_refl _
      · exact (List.pairwise_cons.1 (List.pairwise_append.1 ho).2.1).1 r₀ hb
  have hmem : r ∈ before ++ r :: behind := by simp
  have hpos : 0 < r₀.word.length := List.length_pos_iff.2 h.ne_nil
  have hne : r.word ≠ [] := List.ne_nil_of_length_pos (by omega)
  have hlongest : Longest (words (before ++ r :: behind)) text r.word :=
    ⟨List.mem_map_of_mem hmem, hne, hstart, fun u hu hs => Nat.le_trans (h.longest u hu hs) hle⟩
  exact ⟨r, hmem, takenAt_of_firstAt? hr hne, hlongest.unique h⟩

/-- Where all words that start at one place are equal, the order does not matter. -/
theorem takesLongest_of_unique {rs : List (Replacement α)}
    (hu : ∀ text, ∀ r ∈ rs, ∀ s ∈ rs, r.word <+: text → s.word <+: text → r.word = s.word) :
    TakesLongest rs := by
  intro text w h
  obtain ⟨r₀, hr₀, rfl⟩ := List.mem_map.1 h.mem
  obtain ⟨r, hr⟩ := exists_firstAt? h
  have hfind := hr
  rw [firstAt?_false] at hfind
  have hmem : r ∈ rs := List.mem_of_find?_eq_some hfind
  have hstart : r.word <+: text :=
    List.isPrefixOf_iff_prefix.1 (List.find?_eq_some_iff_append.1 hfind).1
  have hword : r.word = r₀.word := hu text r hmem r₀ hr₀ hstart h.starts
  exact ⟨r, hmem, takenAt_of_firstAt? hr (hword ▸ h.ne_nil), hword⟩

/-- Where no word starts, the empty word is taken, and only once. -/
theorem takenAt_of_noneStarts {rs : List (Replacement α)} {text : List α}
    (h : NoneStarts (words rs) text) :
    takenAt rs text = (rs.find? fun r => r.word = []).toList := by
  have hempty : ∀ r ∈ rs, r.word <+: text ↔ r.word = [] := by
    intro r hr
    constructor
    · intro hs
      exact Classical.byContradiction fun hne => h r.word (List.mem_map_of_mem hr) hne hs
    · intro he
      rw [he]
      exact List.nil_prefix
  have hfirst : firstAt? rs false text = rs.find? fun r => r.word = [] := by
    rw [firstAt?_false]
    refine List.find?_congr fun r hr => ?_
    rw [Bool.eq_iff_iff, List.isPrefixOf_iff_prefix, hempty r hr, decide_eq_true_iff]
  have hagain : firstAt? rs true text = none := by
    rw [firstAt?, List.find?_eq_none]
    intro r hr hstart
    simp only [Bool.and_eq_true, List.isPrefixOf_iff_prefix, hempty r hr] at hstart
    simp [hstart.1] at hstart
  rw [takenAt, hfirst]
  cases hf : rs.find? fun r => r.word = [] with
  | none => rfl
  | some r =>
    have hr : r.word = [] := by simpa using List.find?_some hf
    simp [hr, hagain]

/-! ## The scan -/

/-- The rest of a word that was taken is skipped. -/
theorem replaceFrom_append (rs : List (Replacement α)) (u rest : List α) :
    replaceFrom rs u.length (u ++ rest) = replaceFrom rs 0 rest := by
  induction u with
  | nil => rfl
  | cons c u ih => rw [List.cons_append, List.length_cons, replaceFrom, ih]

/-- A scan that takes the longest words writes what the cut says. -/
theorem replaceFrom_of_cut {rs : List (Replacement α)} (ho : TakesLongest rs)
    (hn : (words rs).Nodup) {text : List α} {items : List (Item α)}
    (h : Cut (words rs) text items) :
    replaceFrom rs 0 text = rendering (valueOf rs) items := by
  have htaken : (rs.find? fun r => r.word = []).toList.flatMap (·.value) = valueOf rs [] := by
    rw [valueOf]
    cases rs.find? fun r => r.word = [] <;> simp
  induction h with
  | nil =>
    have hnone : NoneStarts (words rs) ([] : List α) :=
      fun w _ hne hs => hne (List.prefix_nil.1 hs)
    rw [replaceFrom, takenAt_of_noneStarts hnone, htaken]
    rfl
  | @word w rest items hl _ ih =>
    obtain ⟨r, hr, ht, rfl⟩ := ho _ _ hl
    cases hw : r.word with
    | nil => exact absurd hw hl.ne_nil
    | cons c cs =>
      rw [hw] at ht
      rw [List.cons_append] at ht ⊢
      simp only [replaceFrom, ht, List.flatMap_cons, List.flatMap_nil, List.append_nil, hw,
        List.length_cons]
      rw [replaceFrom_append, ih, ← hw, ← valueOf_of_mem hn hr]
      simp only [rendering, List.flatMap_cons, Item.rendered, List.append_assoc]
  | @single a rest items hnone _ ih =>
    have hwords : (takenAt rs (a :: rest)).flatMap (·.word) = [] := by
      rw [takenAt_of_noneStarts hnone, List.flatMap_eq_nil_iff]
      intro r hr
      simpa using List.find?_some (Option.mem_toList.1 hr)
    simp only [replaceFrom, hwords, List.length_nil]
    rw [takenAt_of_noneStarts hnone, htaken, ih]
    simp only [rendering, List.flatMap_cons, Item.rendered, List.append_assoc,
      List.cons_append, List.nil_append]

/-- Replacement writes what the cut says. -/
theorem replace_of_cut {rs : List (Replacement α)} (hn : (words rs).Nodup) {text : List α}
    {items : List (Item α)} (h : Cut (words rs) text items) :
    replace rs text = rendering (valueOf rs) items := by
  have hp : (longestFirst rs).Perm rs := longestFirst_perm rs
  have hn' : (words (longestFirst rs)).Nodup := (hp.map _).nodup_iff.2 hn
  have hc : Cut (words (longestFirst rs)) text items :=
    h.congr fun w => ((hp.map _).mem_iff).symm
  rw [replace, replaceFrom_of_cut (longestFirst_longestFirst rs).takesLongest hn' hc, valueOf_perm hp hn']

end ModBuild.Template
