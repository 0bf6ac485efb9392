import ModBuild.Descriptor.Relocation
import ModBuild.Proofs.Text.Blank

/-!
# Which texts are relocation rules

A rule is two texts with a single bar between them, neither of them blank.  They
count without the blanks around them (`parse?_eq_some_iff`).
-/

namespace ModBuild.Relocation

/-- A rule is two texts with a bar between them.  Neither has a bar or is blank. -/
def IsRule (rule left right : String) : Prop :=
  rule = left ++ "|" ++ right ∧ '|' ∉ left.toList ∧ '|' ∉ right.toList ∧
    ¬ Text.AllBlank left ∧ ¬ Text.AllBlank right

theorem dropWhile_bar {left right : List Char} (h : '|' ∉ left) :
    (left ++ '|' :: right).dropWhile (· ≠ '|') = '|' :: right := by
  rw [List.dropWhile_append_of_pos]
  · simp
  · intro c hc
    exact decide_eq_true fun e : c = '|' => h (e ▸ hc)

theorem takeWhile_bar {left right : List Char} (h : '|' ∉ left) :
    (left ++ '|' :: right).takeWhile (· ≠ '|') = left := by
  rw [List.takeWhile_append_of_pos]
  · simp
  · intro c hc
    exact decide_eq_true fun e : c = '|' => h (e ▸ hc)

/-- A text with a bar is cut at the first one. -/
theorem eq_append_of_dropWhile {cs right : List Char} {c : Char}
    (h : cs.dropWhile (· ≠ '|') = c :: right) :
    cs = cs.takeWhile (· ≠ '|') ++ '|' :: right ∧ '|' ∉ cs.takeWhile (· ≠ '|') := by
  have hne : cs.dropWhile (· ≠ '|') ≠ [] := by
    rw [h]
    exact List.cons_ne_nil c right
  have hc : c = '|' := by
    have hhead := List.head_dropWhile_not (fun c => decide (c ≠ '|')) hne
    simpa only [h, List.head_cons, decide_eq_false_iff_not, not_not] using hhead
  constructor
  · have hcs := List.takeWhile_append_dropWhile (p := (· ≠ '|')) (l := cs)
    rw [h, hc] at hcs
    exact hcs.symm
  · intro hm
    have hp := List.mem_takeWhile_imp hm
    simp at hp

/-- A rule is read as the two texts around its bar, without the blanks around
them. -/
theorem parse?_eq_some_iff (rule : String) (r : Relocation) :
    parse? rule = some r ↔
      ∃ left right, IsRule rule left right ∧ r = ⟨Text.trimmed left, Text.trimmed right⟩ := by
  constructor
  · intro h
    unfold parse? at h
    split at h
    · cases h
    · next c right hd =>
      obtain ⟨hrule, hleft⟩ := eq_append_of_dropWhile hd
      dsimp only at h
      split at h
      · cases h
      · next hn =>
        simp only [not_or, Text.trim_eq_nil_iff] at hn
        obtain ⟨hright, hl, hr⟩ := hn
        cases h
        refine ⟨.ofList (rule.toList.takeWhile (· ≠ '|')), .ofList right, ⟨?_, ?_, ?_, ?_, ?_⟩, ?_⟩
        · apply String.toList_inj.1
          simpa using hrule
        · simpa using hleft
        · simpa using hright
        · simpa [Text.AllBlank] using hl
        · simpa [Text.AllBlank] using hr
        · simp [Text.trimmed]
  · intro hx
    obtain ⟨left, right, ⟨hrule, hleft, hright, hl, hr⟩, rfl⟩ := hx
    have hcs : rule.toList = left.toList ++ '|' :: right.toList := by rw [hrule]; simp
    have hl : Text.trim left.toList ≠ [] := mt (Text.trim_eq_nil_iff _).1 hl
    have hr : Text.trim right.toList ≠ [] := mt (Text.trim_eq_nil_iff _).1 hr
    simp only [parse?, hcs, dropWhile_bar hleft, takeWhile_bar hleft]
    rw [if_neg (by simp [hright, hl, hr])]
    rfl

end ModBuild.Relocation
