import Mathlib.Data.List.Lex
import Mathlib.Data.String.Basic
import ModBuild.Files.Order

/-!
# Locations in order

The order of locations is the lexicographic one on lists of names, and names are
ordered as texts (`Location.inOrder_iff`).  Sorting keeps what is there
(`Location.sorted_perm`) and brings it in this order (`Location.sorted_pairwise`).
-/

namespace ModBuild

theorem textsInOrder_iff (as bs : List Char) : textsInOrder as bs = true ↔ as ≤ bs := by
  rw [← not_lt]
  induction as generalizing bs with
  | nil => simp [textsInOrder]
  | cons a as ih =>
    cases bs with
    | nil => simp [textsInOrder]
    | cons b bs =>
      rw [textsInOrder, List.cons_lt_cons_iff]
      by_cases h : a = b
      · simp [h, ih]
      · rw [if_neg h, decide_eq_true_iff]
        simp only [Ne.symm h, false_and, or_false, not_lt]
        have hlt : a.toNat < b.toNat ↔ a < b := Iff.rfl
        rw [hlt, lt_iff_le_and_ne]
        exact and_iff_left h

namespace Location

theorem inOrder_iff (l m : Location) : l.inOrder m = true ↔ l ≤ m := by
  rw [← not_lt]
  induction l generalizing m with
  | nil => simp [inOrder]
  | cons a as ih =>
    cases m with
    | nil => simp [inOrder]
    | cons b bs =>
      rw [inOrder, List.cons_lt_cons_iff]
      by_cases h : a = b
      · simp [h, ih]
      · rw [if_neg h, textsInOrder_iff, ← String.le_iff_toList_le]
        simp only [Ne.symm h, false_and, or_false, not_lt]

theorem insertSorted_perm (l : Location) (ls : List Location) :
    (insertSorted l ls).Perm (l :: ls) := by
  induction ls with
  | nil => exact .refl _
  | cons m ms ih =>
    rw [insertSorted]
    split
    · exact .refl _
    · exact (ih.cons m).trans (.swap l m ms)

theorem sorted_perm (ls : List Location) : (sorted ls).Perm ls := by
  induction ls with
  | nil => exact .refl _
  | cons l ls ih => exact (insertSorted_perm l _).trans (ih.cons l)

theorem insertSorted_pairwise {l : Location} {ls : List Location}
    (h : ls.Pairwise (· ≤ ·)) : (insertSorted l ls).Pairwise (· ≤ ·) := by
  induction ls with
  | nil => exact List.pairwise_singleton _ l
  | cons m ms ih =>
    obtain ⟨hm, hms⟩ := List.pairwise_cons.1 h
    rw [insertSorted]
    split
    · next hle =>
      have hle : l ≤ m := (inOrder_iff l m).1 hle
      refine List.pairwise_cons.2 ⟨fun k hk => ?_, h⟩
      rcases List.mem_cons.1 hk with rfl | hk
      · exact hle
      · exact le_trans hle (hm k hk)
    · next hnot =>
      have hle : m ≤ l := le_of_not_ge fun h' => hnot ((inOrder_iff l m).2 h')
      refine List.pairwise_cons.2 ⟨fun k hk => ?_, ih hms⟩
      rcases List.mem_cons.1 ((insertSorted_perm l ms).mem_iff.1 hk) with rfl | hk
      · exact hle
      · exact hm k hk

theorem sorted_pairwise (ls : List Location) : (sorted ls).Pairwise (· ≤ ·) := by
  induction ls with
  | nil => exact .nil
  | cons l ls ih => exact insertSorted_pairwise ih

/-- Different locations come strictly one after the other. -/
theorem sorted_pairwise_lt {ls : List Location} (h : ls.Nodup) :
    (sorted ls).Pairwise (· < ·) := by
  have hne : (sorted ls).Nodup := (sorted_perm ls).nodup_iff.2 h
  exact (sorted_pairwise ls).imp₂ (fun _ _ hle hne => lt_of_le_of_ne hle hne) hne

end Location

end ModBuild
