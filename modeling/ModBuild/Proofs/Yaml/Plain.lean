import ModBuild.Proofs.Yaml.Cursor
import ModBuild.Yaml.Token.Plain

/-!
# A single plain word

A plain scalar that is a single word is read together with the white space behind it, up to
something that no word can start with.
-/

namespace ModBuild.Yaml

/-- A character that is skipped between tokens, in a text with line feeds for line breaks. -/
def isLayout (c : Char) : Bool :=
  c == ' ' || c == '\n'

namespace Plain

variable {c : Cursor} {w g cs : List Char} {flow : Bool}

/-- A text that does not go on with a word, nor with what is skipped between words. -/
def Stops (flow : Bool) (cs : List Char) : Prop :=
  cs = [] ∨ ∃ d ds, cs = d :: ds ∧ (d = '\t' ∨ flow = true ∧ isFlowMark d = true)

/-- A character that stands for itself in a plain scalar, whatever comes before and behind. -/
def isInner (c : Char) : Bool :=
  !(isBlank c || c == ':' || c == '?' || c == '#' || isFlowMark c)

/-! ## Letters and digits -/

theorem isIndicator_not_isAlphanum : ∀ e, isIndicator e = true → e.isAlphanum = false := by
  have hall : "-?:,[]\x7b\x7d#&*!|>'\"%@`".toList.all (fun e => !e.isAlphanum) = true := by
    decide +kernel
  intro e he
  rw [isIndicator, List.contains_iff_mem] at he
  simpa using List.all_eq_true.1 hall e he

theorem isBlank_not_isAlphanum : ∀ e, isBlank e = true → e.isAlphanum = false := by
  intro e he
  simp only [isBlank, isWhite, isBreak, Bool.or_eq_true, beq_iff_eq] at he
  rcases he with (rfl | rfl) | ((((rfl | rfl) | rfl) | rfl) | rfl) <;> decide

theorem isInner_of_isAlphanum {e : Char} (h : e.isAlphanum = true) : isInner e := by
  have hne : ∀ f : Char, f.isAlphanum = false → e ≠ f := by
    rintro f hf rfl
    rw [h] at hf
    cases hf
  have hblank : isBlank e = false := by
    rw [← Bool.not_eq_true]
    exact fun hb => hne e (isBlank_not_isAlphanum e hb) rfl
  simp [isInner, isFlowMark, hblank, hne ':' (by decide), hne '?' (by decide),
    hne '#' (by decide), hne ',' (by decide), hne '[' (by decide), hne ']' (by decide),
    hne '{' (by decide), hne '}' (by decide)]

/-! ## Where a word stops -/

theorem Stops.word_eq_nil (h : Stops flow cs) : word flow cs = [] := by
  rcases h with rfl | ⟨d, ds, rfl, rfl | ⟨rfl, hd⟩⟩
  · rfl
  · rw [word, if_pos (by rfl)]
  · rw [word, if_pos (by simp [endsWord, hd])]

theorem Stops.isSpaceOrBreak_head {d : Char} {ds : List Char} (h : Stops flow (d :: ds)) :
    isSpaceOrBreak d = false := by
  rcases h with h | ⟨_, _, ⟨⟩, rfl | ⟨-, hd⟩⟩
  · cases h
  · decide
  · simp only [isFlowMark, Bool.or_eq_true, beq_iff_eq] at hd
    rcases hd with (((rfl | rfl) | rfl) | rfl) | rfl <;> decide

theorem atAnyMarker_cons {d : Char} {ds : List Char} (hd : d ≠ '-' ∧ d ≠ '.') :
    atAnyMarker (d :: ds) = false := by
  rcases ds with _ | ⟨e, _ | ⟨f, ds⟩⟩
  · rfl
  · rfl
  · simp [atAnyMarker, atMarker, hd.1, hd.2]

theorem Stops.atAnyMarker_layout (h : Stops flow cs) (hg : ∀ e ∈ g, isLayout e) :
    atAnyMarker (g ++ cs) = false := by
  cases g with
  | nil =>
    rcases h with rfl | ⟨d, ds, rfl, hd⟩
    · rfl
    · refine atAnyMarker_cons ?_
      rcases hd with rfl | ⟨-, hd⟩
      · decide
      · constructor <;> (rintro rfl; cases hd)
  | cons e g =>
    have he := hg e List.mem_cons_self
    refine atAnyMarker_cons ?_
    constructor <;> (rintro rfl; cases he)

theorem Stops.lineBreak?_eq (h : Stops flow c.rest) : c.lineBreak? = none := by
  cases hrest : c.rest with
  | nil => exact Cursor.lineBreak?_nil hrest
  | cons d ds =>
    rw [hrest] at h
    have hd := h.isSpaceOrBreak_head
    rw [isSpaceOrBreak, Bool.or_eq_false_iff] at hd
    exact Cursor.lineBreak?_of_not_isBreak hrest hd.2

theorem Stops.sees_eq (h : Stops flow c.rest) {d : Char} (hd : d = ' ' ∨ d = '#') :
    c.sees (· == d) = false := by
  rcases h with hnil | ⟨e, es, hrest, he⟩
  · exact Cursor.sees_nil hnil
  · rw [Cursor.sees_cons hrest]
    rcases he with rfl | ⟨-, he⟩ <;> rcases hd with rfl | rfl
    · rfl
    · rfl
    all_goals
      rw [beq_eq_false_iff_ne]
      rintro rfl
      cases he

/-! ## Words -/

theorem word_append (hw : ∀ e ∈ w, isInner e) : word flow (w ++ cs) = w ++ word flow cs := by
  induction w with
  | nil => rfl
  | cons e w ih =>
    have he := hw e List.mem_cons_self
    simp only [isInner, Bool.not_eq_true', Bool.or_eq_false_iff] at he
    have hends : endsWord flow e (w ++ cs) = false := by simp [endsWord, he]
    rw [List.cons_append, word, hends, ih fun f hf => hw f (List.mem_cons_of_mem e hf)]
    rfl

theorem word_layout (hg : ∀ e ∈ g, isLayout e) (hcs : Stops flow cs) : word flow (g ++ cs) = [] := by
  cases g with
  | nil => exact hcs.word_eq_nil
  | cons e g =>
    have he : isBlank e = true := by
      have he := hg e List.mem_cons_self
      simp only [isLayout, Bool.or_eq_true, beq_iff_eq] at he
      rcases he with rfl | rfl <;> decide
    rw [List.cons_append, word, if_pos (by simp [endsWord, he])]

/-! ## White space behind a word -/

theorem breaks?_layout (h : c.rest = g ++ cs) (hg : ∀ e ∈ g, isLayout e) (hcs : Stops flow cs)
    {fuel : Nat} (hfuel : g.length ≤ fuel) :
    ∃ bs, breaks? c fuel = (some bs, c.skip g.length) := by
  induction g generalizing c fuel with
  | nil =>
    cases fuel with
    | zero => exact ⟨[], rfl⟩
    | succ fuel =>
      rw [List.nil_append] at h
      rw [← h] at hcs
      rw [breaks?, hcs.sees_eq (Or.inl rfl), hcs.lineBreak?_eq]
      exact ⟨[], rfl⟩
  | cons e g ih =>
    obtain ⟨fuel, rfl⟩ := Nat.exists_eq_succ_of_ne_zero (Nat.ne_zero_of_lt hfuel)
    have hnext : c.next.rest = g ++ cs := by rw [Cursor.rest_next, h]; rfl
    have hg' : ∀ e ∈ g, isLayout e := fun f hf => hg f (List.mem_cons_of_mem e hf)
    obtain ⟨bs, hbs⟩ := ih hnext hg' (Nat.le_of_succ_le_succ hfuel)
    have he := hg e List.mem_cons_self
    simp only [isLayout, Bool.or_eq_true, beq_iff_eq] at he
    rw [List.length_cons, Cursor.skip_succ]
    rcases he with rfl | rfl
    · rw [breaks?, Cursor.sees_cons h]
      exact ⟨bs, hbs⟩
    · rw [breaks?, Cursor.sees_cons h, Cursor.lineBreak?_lineFeed h]
      simp only [hnext, hcs.atAnyMarker_layout hg', hbs]
      exact ⟨'\n' :: bs, rfl⟩

/-- What is skipped between tokens starts with spaces, and a line feed is behind them unless
they are all of it. -/
theorem exists_spaces (hg : ∀ e ∈ g, isLayout e) :
    ∃ s, (∀ e ∈ s, e = ' ') ∧ (g = s ∨ ∃ g', g = s ++ '\n' :: g') := by
  induction g with
  | nil => exact ⟨[], List.forall_mem_nil _, Or.inl rfl⟩
  | cons e g ih =>
    obtain ⟨s, hs, hsplit⟩ := ih fun f hf => hg f (List.mem_cons_of_mem e hf)
    have he := hg e List.mem_cons_self
    simp only [isLayout, Bool.or_eq_true, beq_iff_eq] at he
    rcases he with rfl | rfl
    · refine ⟨' ' :: s, List.forall_mem_cons.2 ⟨rfl, hs⟩, ?_⟩
      rcases hsplit with rfl | ⟨g', rfl⟩
      · exact Or.inl rfl
      · exact Or.inr ⟨g', rfl⟩
    · exact ⟨[], List.forall_mem_nil _, Or.inr ⟨g, rfl⟩⟩

theorem run_spaces {s : List Char} (h : c.rest = s ++ cs) (hs : ∀ e ∈ s, e = ' ')
    (hcs : cs.head? ≠ some ' ') : c.run (· == ' ') = s := by
  have hrest : cs.takeWhile (· == ' ') = [] := by
    cases cs with
    | nil => rfl
    | cons d ds =>
      refine List.takeWhile_cons_of_neg fun hd => hcs ?_
      rw [List.head?_cons, eq_of_beq hd]
  rw [Cursor.run, h, List.takeWhile_append_of_pos fun e he => beq_iff_eq.2 (hs e he), hrest,
    List.append_nil]

/-- The gap behind a word is all of the white space there. -/
theorem gap_cursor (h : c.rest = g ++ cs) (hg : ∀ e ∈ g, isLayout e) (hcs : Stops flow cs) :
    (gap c).cursor = c.skip g.length := by
  obtain ⟨s, hs, rfl | ⟨g', rfl⟩⟩ := exists_spaces hg
  · have hhead : cs.head? ≠ some ' ' := by
      intro he
      obtain ⟨ds, rfl⟩ := List.head?_eq_some_iff.1 he
      exact absurd hcs.isSpaceOrBreak_head (by decide)
    have hrest := Cursor.rest_skip_append h
    have hstops : Stops flow (c.skip g.length).rest := hrest ▸ hcs
    have hline := hstops.lineBreak?_eq
    rw [gap, run_spaces h hs hhead, hline]
  · rw [List.append_assoc] at h
    have hg' : ∀ e ∈ g', isLayout e := fun e he => hg e (by simp [he])
    have hrest := Cursor.rest_skip_append h
    have hnext : (c.skip s.length).next.rest = g' ++ cs := by
      rw [Cursor.rest_next, hrest]
      rfl
    have hlength : g'.length ≤ (c.skip s.length).next.rest.length := by
      rw [hnext, List.length_append]
      exact Nat.le_add_right _ _
    obtain ⟨bs, hbs⟩ := breaks?_layout hnext hg' hcs hlength
    have hmarker : atAnyMarker (c.skip s.length).next.rest = false := by
      rw [hnext, hcs.atAnyMarker_layout hg']
    rw [gap, run_spaces h hs (by simp), Cursor.lineBreak?_lineFeed hrest]
    simp only [hmarker, hbs]
    rw [List.length_append, Cursor.skip_add]
    rfl

theorem words_stop (h : Stops flow c.rest) (indent : Nat) (before : List Char) (broken : Bool)
    (fuel : Nat) : words flow indent before broken c fuel = ⟨[], c, broken⟩ := by
  cases fuel with
  | zero => rfl
  | succ fuel =>
    rw [words, h.word_eq_nil, ite_self]
    rfl

/-- A single word is read with the white space behind it. -/
theorem scan_word (h : c.rest = w ++ (g ++ cs)) (hne : w ≠ []) (hw : ∀ e ∈ w, isInner e)
    (hg : ∀ e ∈ g, isLayout e) (hcs : Stops flow cs) (indent : Nat) :
    ∃ broken, scan flow indent c = ⟨w, c.skip (w.length + g.length), broken⟩ := by
  have hword : (if c.sees (· == '#') then [] else word flow c.rest) = w := by
    obtain ⟨d, w, rfl⟩ := List.exists_cons_of_ne_nil hne
    have hd := hw d List.mem_cons_self
    have hsees : c.sees (· == '#') = false := by
      rw [Cursor.sees_cons h, beq_eq_false_iff_ne]
      rintro rfl
      cases hd
    rw [hsees, h, word_append hw, word_layout hg hcs, List.append_nil]
    rfl
  have hrest := Cursor.rest_skip_append h
  have hcursor := gap_cursor hrest hg hcs
  have hstop : Stops flow (gap (c.skip w.length)).cursor.rest := by
    rwa [hcursor, Cursor.rest_skip_append hrest]
  rw [Cursor.skip_add, ← hcursor]
  refine ⟨(gap (c.skip w.length)).broken, ?_⟩
  unfold scan words
  simp only [hword, if_neg hne]
  split
  · rfl
  · split
    · rfl
    · simp [words_stop hstop]

end Plain

end ModBuild.Yaml
