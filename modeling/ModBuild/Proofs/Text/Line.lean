import ModBuild.Text.Line

/-!
# Line breaks

Unifying the line breaks of a text changes nothing but its carriage returns.  A text can
also be cut into lines that keep their breaks (`brokenLines`).  Without their breaks these
are the lines of the text (`map_brokenLines`), and with them they make up the text
(`flatten_brokenLines`).  In a text without carriage returns every break ends a line on its
own, so the lines can be told from left to right (`lines_append`, `lines_line`).
-/

namespace ModBuild.Text

variable {c : Char} {cs ds : List Char}

/-! ## Unified breaks -/

theorem unifyBreaks_cons (h : c ≠ '\r') : unifyBreaks (c :: cs) = c :: unifyBreaks cs := by
  rw [unifyBreaks]
  · rw [if_neg h]
  · rintro _ rfl
    exact absurd rfl h

theorem unifyBreaks_append_left (h : '\r' ∉ cs) :
    unifyBreaks (cs ++ ds) = cs ++ unifyBreaks ds := by
  induction cs with
  | nil => rfl
  | cons c cs ih =>
    rw [List.mem_cons, not_or] at h
    rw [List.cons_append, unifyBreaks_cons (Ne.symm h.1), ih h.2, List.cons_append]

theorem unifyBreaks_eq_self (h : '\r' ∉ cs) : unifyBreaks cs = cs := by
  have happend : unifyBreaks (cs ++ []) = cs ++ unifyBreaks [] := unifyBreaks_append_left h
  simpa [unifyBreaks] using happend

/-- Only a line feed at the front of a text can belong to a break before it. -/
theorem unifyBreaks_append (h : ds.head? ≠ some '\n') :
    unifyBreaks (cs ++ ds) = unifyBreaks cs ++ unifyBreaks ds := by
  fun_induction unifyBreaks cs with
  | case1 => rfl
  | case2 cs ih => rw [List.cons_append, List.cons_append, unifyBreaks, ih, List.cons_append]
  | case3 c cs hpair ih =>
    rw [List.cons_append, unifyBreaks, ih, List.cons_append]
    rintro es rfl hes
    cases cs with
    | nil =>
      rw [List.nil_append] at hes
      exact h (by rw [hes]; rfl)
    | cons d cs =>
      obtain ⟨rfl, -⟩ := List.cons.inj hes
      exact hpair cs rfl rfl

theorem mem_unifyBreaks (h : c ∈ unifyBreaks cs) : c = '\n' ∨ c ∈ cs ∧ c ≠ '\r' := by
  fun_induction unifyBreaks cs with
  | case1 => cases h
  | case2 cs ih =>
    rcases List.mem_cons.1 h with rfl | h
    · exact Or.inl rfl
    · exact (ih h).imp_right fun hc => ⟨by simp [hc.1], hc.2⟩
  | case3 d cs _ ih =>
    rcases List.mem_cons.1 h with h | h
    · split at h
      · exact Or.inl h
      · next hd => exact Or.inr ⟨h ▸ List.mem_cons_self, h ▸ hd⟩
    · exact (ih h).imp_right fun hc => ⟨List.mem_cons_of_mem d hc.1, hc.2⟩

theorem mem_unifyBreaks_of_mem (h : c ∈ cs) (hc : c ≠ '\r') : c ∈ unifyBreaks cs := by
  fun_induction unifyBreaks cs with
  | case1 => cases h
  | case2 cs ih =>
    rcases List.mem_cons.1 h with rfl | h
    · exact absurd rfl hc
    · rcases List.mem_cons.1 h with rfl | h
      · exact List.mem_cons_self
      · exact List.mem_cons_of_mem _ (ih h)
  | case3 d cs _ ih =>
    rcases List.mem_cons.1 h with rfl | h
    · rw [if_neg hc]
      exact List.mem_cons_self
    · exact List.mem_cons_of_mem _ (ih h)

theorem lineFeed_mem_unifyBreaks (h : '\n' ∈ cs ∨ '\r' ∈ cs) : '\n' ∈ unifyBreaks cs := by
  fun_induction unifyBreaks cs with
  | case1 => simp at h
  | case2 cs ih => exact List.mem_cons_self
  | case3 d cs _ ih =>
    by_cases hd : d = '\n' ∨ d = '\r'
    · rcases hd with rfl | rfl <;> simp
    · rw [not_or] at hd
      refine List.mem_cons_of_mem _ (ih ?_)
      simpa [Ne.symm hd.1, Ne.symm hd.2] using h

/-! ## Lines with their breaks -/

/-- The lines of a text, each with the break that ends it. -/
def brokenLines : List Char → List (List Char)
  | [] => []
  | '\r' :: '\n' :: cs => ['\r', '\n'] :: brokenLines cs
  | c :: cs =>
    if isLineBreak c then
      [c] :: brokenLines cs
    else
      match brokenLines cs with
      | [] => [[c]]
      | l :: ls => (c :: l) :: ls

/-- A text that ends with a line break. -/
def EndsLine (cs : List Char) : Prop :=
  ∃ before c, cs = before ++ [c] ∧ isLineBreak c = true

theorem mem_dropLast_cons {α : Type} {a b : α} {as : List α} (h : b ∈ (a :: as).dropLast) :
    as ≠ [] ∧ b = a ∨ b ∈ as.dropLast := by
  cases as with
  | nil => cases h
  | cons c as => simpa [List.dropLast_cons_of_ne_nil] using h

theorem flatten_brokenLines (cs : List Char) : (brokenLines cs).flatten = cs := by
  fun_induction brokenLines cs with
  | case1 => rfl
  | case2 cs ih => simp [ih]
  | case3 c cs _ _ ih => simp [ih]
  | case4 c cs _ _ h ih => simpa [h] using ih
  | case5 c cs _ _ l ls h ih => simpa [h] using ih

/-- Without their breaks they are the lines of the text. -/
theorem map_brokenLines (cs : List Char) :
    (brokenLines cs).map (List.takeWhile fun c => !isLineBreak c) = lines cs := by
  fun_induction brokenLines cs with
  | case1 => rfl
  | case2 cs ih =>
    have hreturn : isLineBreak '\r' = true := by decide
    simp [lines, ih, hreturn]
  | case3 c cs hpair hc ih =>
    rw [lines.eq_3 c cs hpair, if_pos hc]
    simp [hc, ih]
  | case4 c cs hpair hc h ih =>
    rw [lines.eq_3 c cs hpair, if_neg hc, ← ih, h]
    simp [hc]
  | case5 c cs hpair hc l ls h ih =>
    rw [lines.eq_3 c cs hpair, if_neg hc, ← ih, h]
    simp [hc]

/-- Every line but the last ends with its break. -/
theorem endsLine_of_mem_brokenLines {l : List Char} (h : l ∈ (brokenLines cs).dropLast) :
    EndsLine l := by
  fun_induction brokenLines cs generalizing l with
  | case1 => cases h
  | case2 cs ih =>
    rcases mem_dropLast_cons h with ⟨-, rfl⟩ | h
    · exact ⟨['\r'], '\n', rfl, by decide⟩
    · exact ih h
  | case3 c cs _ hc ih =>
    rcases mem_dropLast_cons h with ⟨-, rfl⟩ | h
    · exact ⟨[], c, rfl, hc⟩
    · exact ih h
  | case4 c cs _ _ _ ih => simp at h
  | case5 c cs _ _ k ls hcs ih =>
    rw [hcs] at ih
    rcases mem_dropLast_cons h with ⟨hne, rfl⟩ | h
    · obtain ⟨before, d, rfl, hd⟩ := ih (l := k) (by simp [List.dropLast_cons_of_ne_nil hne])
      exact ⟨c :: before, d, rfl, hd⟩
    · refine ih ?_
      rw [List.dropLast_cons_of_ne_nil (by rintro rfl; cases h)]
      exact List.mem_cons_of_mem k h

/-! ## Lines without their breaks -/

theorem not_isLineBreak_of_mem_lines {l : List Char} (h : l ∈ lines cs) (hc : c ∈ l) :
    isLineBreak c = false := by
  rw [← map_brokenLines] at h
  obtain ⟨b, -, rfl⟩ := List.mem_map.1 h
  simpa using List.all_eq_true.1 List.all_takeWhile c hc

theorem lines_of_isLineBreak (hc : isLineBreak c = true) (hreturn : c ≠ '\r') :
    lines (c :: cs) = [] :: lines cs := by
  rw [lines.eq_3 c cs fun _ h => absurd h hreturn, if_pos hc]

theorem lines_of_not_isLineBreak (hc : isLineBreak c = false) :
    lines (c :: cs) = match lines cs with
      | [] => [[c]]
      | l :: ls => (c :: l) :: ls := by
  have hreturn : c ≠ '\r' := by
    rintro rfl
    cases hc
  rw [lines.eq_3 c cs fun _ h => absurd h hreturn, hc]
  rfl

theorem lines_eq_nil_iff : lines cs = [] ↔ cs = [] := by
  rw [← map_brokenLines, List.map_eq_nil_iff]
  constructor
  · intro h
    rw [← flatten_brokenLines cs, h, List.flatten_nil]
  · rintro rfl
    rfl

theorem EndsLine.ne_nil (h : EndsLine cs) : cs ≠ [] := by
  obtain ⟨before, c, rfl, -⟩ := h
  simp

theorem endsLine_cons_iff :
    EndsLine (c :: cs) ↔ cs = [] ∧ isLineBreak c = true ∨ EndsLine cs := by
  constructor
  · rintro ⟨before, d, hcs, hd⟩
    cases before with
    | nil =>
      obtain ⟨rfl, rfl⟩ := List.cons.inj hcs
      exact Or.inl ⟨rfl, hd⟩
    | cons b before => exact Or.inr ⟨before, d, (List.cons.inj hcs).2, hd⟩
  · rintro (⟨rfl, hc⟩ | ⟨before, d, rfl, hd⟩)
    · exact ⟨[], c, rfl, hc⟩
    · exact ⟨c :: before, d, rfl, hd⟩

/-- A text that ends with a line break is cut apart from what stands behind it. -/
theorem lines_append (h : EndsLine cs) (hreturn : '\r' ∉ cs) :
    lines (cs ++ ds) = lines cs ++ lines ds := by
  induction cs with
  | nil => exact absurd rfl h.ne_nil
  | cons c cs ih =>
    rw [List.mem_cons, not_or] at hreturn
    have hc' : c ≠ '\r' := Ne.symm hreturn.1
    rcases endsLine_cons_iff.1 h with ⟨rfl, hc⟩ | h
    · rw [List.singleton_append, lines_of_isLineBreak hc hc', lines_of_isLineBreak hc hc']
      rfl
    · have ih : lines (cs ++ ds) = lines cs ++ lines ds := ih h hreturn.2
      cases hc : isLineBreak c with
      | true =>
        rw [List.cons_append, lines_of_isLineBreak hc hc', ih, lines_of_isLineBreak hc hc',
          List.cons_append]
      | false =>
        rw [List.cons_append, lines_of_not_isLineBreak hc, ih, lines_of_not_isLineBreak hc]
        cases hlines : lines cs with
        | nil => exact absurd (lines_eq_nil_iff.1 hlines) h.ne_nil
        | cons l ls => rfl

/-- A text without line breaks is a line. -/
theorem lines_line (h : ∀ c ∈ cs, isLineBreak c = false) (hne : cs ≠ []) : lines cs = [cs] := by
  induction cs with
  | nil => exact absurd rfl hne
  | cons c cs ih =>
    rw [lines_of_not_isLineBreak (h c List.mem_cons_self)]
    cases cs with
    | nil => rfl
    | cons d cs => rw [ih (fun e he => h e (List.mem_cons_of_mem c he)) (List.cons_ne_nil d cs)]

/-- A line ends at the first line break. -/
theorem lines_line_append (h : ∀ c ∈ cs, isLineBreak c = false) (hc : isLineBreak c = true)
    (hreturn : c ≠ '\r') : lines (cs ++ c :: ds) = cs :: lines ds := by
  induction cs with
  | nil => rw [List.nil_append, lines_of_isLineBreak hc hreturn]
  | cons d cs ih =>
    rw [List.cons_append, lines_of_not_isLineBreak (h d List.mem_cons_self),
      ih fun e he => h e (List.mem_cons_of_mem d he)]

/-! ## Ends of lines with unified breaks -/

theorem return_not_mem_unifyBreaks (cs : List Char) : '\r' ∉ unifyBreaks cs := by
  intro h
  rcases mem_unifyBreaks h with h | ⟨-, h⟩
  · exact absurd h (by decide)
  · exact h rfl

theorem unifyBreaks_eq_nil_iff : unifyBreaks cs = [] ↔ cs = [] := by
  fun_cases unifyBreaks cs <;> simp

/-- A line break stays one. -/
theorem exists_unifyBreaks_eq_cons (hc : isLineBreak c = true) (cs : List Char) :
    ∃ d ds, unifyBreaks (c :: cs) = d :: ds ∧ isLineBreak d = true ∧ d ≠ '\r' := by
  have hfeed : isLineBreak '\n' = true := by decide
  generalize hcs : c :: cs = es
  fun_cases unifyBreaks es with
  | case1 => cases hcs
  | case2 es => exact ⟨'\n', _, rfl, hfeed, by decide⟩
  | case3 e es _ =>
    obtain ⟨rfl, rfl⟩ := List.cons.inj hcs
    refine ⟨_, _, rfl, ?_⟩
    by_cases hreturn : c = '\r'
    · rw [if_pos hreturn]
      exact ⟨hfeed, by decide⟩
    · rw [if_neg hreturn]
      exact ⟨hc, hreturn⟩

theorem EndsLine.unifyBreaks (h : EndsLine cs) : EndsLine (unifyBreaks cs) := by
  have hfeed : isLineBreak '\n' = true := by decide
  fun_induction Text.unifyBreaks cs with
  | case1 => exact h
  | case2 cs ih =>
    rcases endsLine_cons_iff.1 h with ⟨hcs, -⟩ | h
    · cases hcs
    · rcases endsLine_cons_iff.1 h with ⟨rfl, -⟩ | h
      · exact ⟨[], '\n', rfl, hfeed⟩
      · exact endsLine_cons_iff.2 (Or.inr (ih h))
  | case3 c cs _ ih =>
    rcases endsLine_cons_iff.1 h with ⟨rfl, hc⟩ | h
    · refine endsLine_cons_iff.2 (Or.inl ⟨rfl, ?_⟩)
      split
      · exact hfeed
      · exact hc
    · exact endsLine_cons_iff.2 (Or.inr (ih h))

end ModBuild.Text
