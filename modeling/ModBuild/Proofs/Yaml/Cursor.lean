import ModBuild.Yaml.Cursor

/-!
# Moving a cursor

A cursor that moves past some characters has them behind it.  It stays on its line if none of
them is a line break.
-/

namespace ModBuild.Yaml.Cursor

variable {c : Cursor}

@[simp]
theorem skip_zero : c.skip 0 = c := rfl

theorem skip_succ (n : Nat) : c.skip (n + 1) = c.next.skip n := rfl

theorem skip_one : c.skip 1 = c.next := rfl

theorem skip_add (m n : Nat) : c.skip (m + n) = (c.skip m).skip n := by
  induction m generalizing c with
  | zero => rw [Nat.zero_add, skip_zero]
  | succ m ih => rw [Nat.succ_add, skip_succ, ih, ← skip_succ]

@[simp]
theorem rest_next : c.next.rest = c.rest.drop 1 := by
  unfold next
  split
  · next h => rw [h, List.drop_nil]
  · next h => rw [h, List.drop_succ_cons, List.drop_zero]

@[simp]
theorem rest_skip (n : Nat) : (c.skip n).rest = c.rest.drop n := by
  induction n generalizing c with
  | zero => rfl
  | succ n ih => rw [skip_succ, ih, rest_next, List.drop_drop, Nat.add_comm]

theorem index_next {d : Char} {ds : List Char} (h : c.rest = d :: ds) :
    c.next.index = c.index + 1 := by
  rw [next, h]

theorem index_skip {w cs : List Char} (h : c.rest = w ++ cs) :
    (c.skip w.length).index = c.index + w.length := by
  induction w generalizing c with
  | nil => rfl
  | cons d w ih =>
    have hnext : c.next.rest = w ++ cs := by rw [rest_next, h]; rfl
    rw [List.length_cons, skip_succ, ih hnext, index_next h, Nat.add_assoc, Nat.add_comm 1]

theorem line_next {d : Char} {ds : List Char} (h : c.rest = d :: ds) (hd : isBreak d = false) :
    c.next.line = c.line := by
  rw [next, h]
  simp [hd]

theorem line_skip {w cs : List Char} (h : c.rest = w ++ cs) (hw : ∀ d ∈ w, isBreak d = false) :
    (c.skip w.length).line = c.line := by
  induction w generalizing c with
  | nil => rfl
  | cons d w ih =>
    have hnext : c.next.rest = w ++ cs := by rw [rest_next, h]; rfl
    rw [List.length_cons, skip_succ, ih hnext fun e he => hw e (List.mem_cons_of_mem d he),
      line_next h (hw d List.mem_cons_self)]

theorem line_le_next : c.line ≤ c.next.line := by
  unfold next
  split
  · exact Nat.le_refl _
  · dsimp only
    split
    · exact Nat.le_succ _
    · exact Nat.le_refl _

theorem line_le_skip (n : Nat) : c.line ≤ (c.skip n).line := by
  induction n generalizing c with
  | zero => exact Nat.le_refl _
  | succ n ih => exact Nat.le_trans line_le_next ih

/-- A cursor that moves past a line break leaves its line. -/
theorem line_lt_skip {w cs : List Char} (h : c.rest = w ++ cs) {b : Char} (hb : b ∈ w)
    (hbreak : isBreak b = true) (hreturn : b ≠ '\r') : c.line < (c.skip w.length).line := by
  induction w generalizing c with
  | nil => cases hb
  | cons d w ih =>
    have hnext : c.next.rest = w ++ cs := by rw [rest_next, h]; rfl
    rw [List.length_cons, skip_succ]
    rcases List.mem_cons.1 hb with rfl | hb
    · have hlt : c.line < c.next.line := by
        rw [next, h]
        simp [hbreak, hreturn]
      exact Nat.lt_of_lt_of_le hlt (line_le_skip _)
    · exact Nat.lt_of_le_of_lt line_le_next (ih hnext hb)

theorem rest_skip_append {w cs : List Char} (h : c.rest = w ++ cs) :
    (c.skip w.length).rest = cs := by
  rw [rest_skip, h, List.drop_left]

theorem sees_cons {p : Char → Bool} {d : Char} {ds : List Char} (h : c.rest = d :: ds) :
    c.sees p = p d := by
  rw [sees, h]

theorem sees_nil {p : Char → Bool} (h : c.rest = []) : c.sees p = false := by
  rw [sees, h]

/-! ## Line breaks -/

theorem lineBreak?_lineFeed {ds : List Char} (h : c.rest = '\n' :: ds) :
    c.lineBreak? = some ('\n', c.next) := by
  rw [lineBreak?, h]
  rfl

/-- A line break that is no carriage return is a line feed, or a separator. -/
theorem lineBreak?_of_isBreak {d : Char} {ds : List Char} (h : c.rest = d :: ds)
    (hd : isBreak d = true) (hreturn : d ≠ '\r') :
    c.lineBreak? = some (if d == '\u2028' || d == '\u2029' then d else '\n', c.next) := by
  unfold lineBreak?
  split
  · next heq =>
    rw [h] at heq
    cases heq
    exact absurd rfl hreturn
  · next e _ _ heq =>
    rw [h] at heq
    cases heq
    rw [if_pos hd]
    exact (apply_ite (fun e => some (e, c.next)) _ _ _).symm
  · next heq =>
    rw [h] at heq
    cases heq

theorem lineBreak?_of_not_isBreak {d : Char} {ds : List Char} (h : c.rest = d :: ds)
    (hd : isBreak d = false) : c.lineBreak? = none := by
  unfold lineBreak?
  split
  · next heq =>
    rw [h] at heq
    cases heq
    cases hd
  · next e _ _ heq =>
    rw [h] at heq
    cases heq
    have hne : d ≠ '\u2028' ∧ d ≠ '\u2029' := by
      constructor <;> (rintro rfl; cases hd)
    simp [hne, hd]
  · rfl

theorem lineBreak?_nil (h : c.rest = []) : c.lineBreak? = none := by
  rw [lineBreak?, h]

end ModBuild.Yaml.Cursor
