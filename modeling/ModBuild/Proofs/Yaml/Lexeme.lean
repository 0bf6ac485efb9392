import ModBuild.Proofs.Yaml.Reader

/-!
# The tokens of a JSON text

A lexeme of JSON is read as one token of YAML, and the name of a member as three.  A name *fits*
if its colon is on its line and within 1024 characters.  Otherwise the reader does not see that
it was a key.
-/

namespace ModBuild.Yaml.Reader

open Json (Gap Glyph Lexeme Piece Scalar)

variable {r : Reader} {n : Nat} {ts : List Token} {g cs : List Char}

theorem starts_cons {d : Char} {ds : List Char}
    (h : d ≠ '#' ∧ d ≠ '\uFEFF' ∧ isSpaceOrBreak d = false) : Starts (d :: ds) := by
  intro e he
  obtain rfl := Option.some.inj he
  exact h

theorem Starts.dropWhile_eq (h : Starts cs) : cs.dropWhile isLayout = cs := by
  cases cs with
  | nil => rfl
  | cons d ds =>
    have hd := (h d rfl).2.2
    refine List.dropWhile_cons_of_neg ?_
    intro hlayout
    simp only [isLayout, Bool.or_eq_true, beq_iff_eq] at hlayout
    rcases hlayout with rfl | rfl <;> cases hd

/-- A reader that stands before white space steps over it to the token behind. -/
theorem Stands.step (h : r.Stands n ts (g ++ cs)) (hg : ∀ e ∈ g, isLayout e) (hcs : Starts cs) :
    ∃ r' : Reader, r.step = r'.readNext ∧ r'.Calm ∧ r'.depth = n ∧ r'.tokens = ts ∧
      r'.cursor.rest = cs ∧ (n ≠ 0 → r'.allowKey = r.allowKey) := by
  have hdrop : (g ++ cs).dropWhile isLayout = cs := by
    rw [List.dropWhile_append_of_pos hg, hcs.dropWhile_eq]
  have hrest : r.cursor.rest = r.cursor.rest.takeWhile isLayout ++ cs := by
    rw [← hdrop, ← h.rest, List.takeWhile_append_dropWhile]
  obtain ⟨allow, hstep, hallow⟩ :=
    h.calm.step_eq hrest (fun e he => List.mem_takeWhile_imp he) hcs
  exact ⟨_, hstep, h.calm.atToken _ _, h.depth, h.tokens, Cursor.rest_skip_append hrest,
    fun hn => hallow (h.depth.symm ▸ hn)⟩

theorem Stands.openArray (h : r.Stands n ts (g ++ '[' :: cs)) (hg : ∀ e ∈ g, isLayout e) :
    ∃ r', r.step = .ok r' ∧ r'.Stands (n + 1) (.flowSequenceStart :: ts) cs := by
  obtain ⟨r', hstep, hcalm, rfl, rfl, hrest, -⟩ := h.step hg (starts_cons (by decide))
  obtain ⟨r'', hread, hstands, -⟩ := hcalm.readOpening hrest .flowSequenceStart
  exact ⟨r'', by rw [hstep, readNext_cons hrest, readToken_openArray, hread], hstands⟩

theorem Stands.closeArray (h : r.Stands (n + 1) ts (g ++ ']' :: cs)) (hg : ∀ e ∈ g, isLayout e) :
    ∃ r', r.step = .ok r' ∧ r'.Stands n (.flowSequenceEnd :: ts) cs := by
  obtain ⟨r', hstep, hcalm, hdepth, rfl, hrest, -⟩ := h.step hg (starts_cons (by decide))
  obtain ⟨r'', hread, hstands⟩ := hcalm.readClosing hrest .flowSequenceEnd
  rw [hdepth] at hstands
  exact ⟨r'', by rw [hstep, readNext_cons hrest, readToken_closeArray, hread], hstands⟩

theorem Stands.openObject (h : r.Stands n ts (g ++ '{' :: cs)) (hg : ∀ e ∈ g, isLayout e) :
    ∃ r', r.step = .ok r' ∧ r'.Stands (n + 1) (.flowMappingStart :: ts) cs ∧
      r'.allowKey = true := by
  obtain ⟨r', hstep, hcalm, rfl, rfl, hrest, -⟩ := h.step hg (starts_cons (by decide))
  obtain ⟨r'', hread, hstands⟩ := hcalm.readOpening hrest .flowMappingStart
  exact ⟨r'', by rw [hstep, readNext_cons hrest, readToken_openObject, hread], hstands⟩

theorem Stands.closeObject (h : r.Stands (n + 1) ts (g ++ '}' :: cs)) (hg : ∀ e ∈ g, isLayout e) :
    ∃ r', r.step = .ok r' ∧ r'.Stands n (.flowMappingEnd :: ts) cs := by
  obtain ⟨r', hstep, hcalm, hdepth, rfl, hrest, -⟩ := h.step hg (starts_cons (by decide))
  obtain ⟨r'', hread, hstands⟩ := hcalm.readClosing hrest .flowMappingEnd
  rw [hdepth] at hstands
  exact ⟨r'', by rw [hstep, readNext_cons hrest, readToken_closeObject, hread], hstands⟩

theorem Stands.comma (h : r.Stands n ts (g ++ ',' :: cs)) (hg : ∀ e ∈ g, isLayout e) :
    ∃ r', r.step = .ok r' ∧ r'.Stands n (.flowEntry :: ts) cs ∧ r'.allowKey = true := by
  obtain ⟨r', hstep, hcalm, rfl, rfl, hrest, -⟩ := h.step hg (starts_cons (by decide))
  obtain ⟨r'', hread, hstands⟩ := hcalm.readComma hrest
  exact ⟨r'', by rw [hstep, readNext_cons hrest, readToken_comma, hread], hstands⟩

theorem Stands.end (h : r.Stands n ts g) (hg : ∀ e ∈ g, isLayout e) :
    ∃ r', r.step = .ok r' ∧ r'.tokens = .streamEnd :: ts := by
  rw [← List.append_nil g] at h
  obtain ⟨r', hstep, hcalm, -, rfl, hrest, -⟩ := h.step hg nofun
  obtain ⟨r'', hread, htokens⟩ := hcalm.readEnd
  exact ⟨r'', by rw [hstep, readNext_nil hrest, hread], htokens⟩

/-- No token starts with a tab. -/
theorem Stands.tab (h : r.Stands n ts (g ++ '\t' :: cs)) (hg : ∀ e ∈ g, isLayout e) :
    r.step = .error .notYaml := by
  obtain ⟨r', hstep, -, -, -, hrest, -⟩ := h.step hg (starts_cons (by decide))
  rw [hstep, readNext_cons hrest, readToken_tab]

theorem starts_inner {d : Char} {ds : List Char} (hd : Plain.isInner d = true)
    (hmark : d ≠ '\uFEFF') : Starts (d :: ds) := by
  simp only [Plain.isInner, isBlank, isWhite, Bool.not_eq_true', Bool.or_eq_false_iff,
    beq_eq_false_iff_ne] at hd
  refine starts_cons ⟨hd.1.2, hmark, ?_⟩
  rw [isSpaceOrBreak, hd.1.1.1.1.2, beq_eq_false_iff_ne.2 hd.1.1.1.1.1.1]
  rfl

theorem Stands.word {w : List Char} (h : r.Stands n ts (g ++ (w ++ cs)))
    (hg : ∀ e ∈ g, isLayout e) (hw : ∀ e ∈ w, Plain.isInner e) (hstart : Json.StartsWord w)
    (hcs : Plain.Stops (decide (n ≠ 0)) (cs.dropWhile isLayout)) :
    ∃ r', r.step = .ok r' ∧ r'.Stands n (.scalar (.ofList w) true :: ts) cs := by
  obtain ⟨d, ds, rfl, hd⟩ := hstart
  have hmark : d ≠ '\uFEFF' := by
    rintro rfl
    rcases hd with hd | ⟨hd, -⟩ <;> exact absurd hd (by decide)
  have hstarts : Starts (d :: ds ++ cs) := starts_inner (hw d List.mem_cons_self) hmark
  obtain ⟨r', hstep, hcalm, rfl, rfl, hrest, -⟩ := h.step hg hstarts
  obtain ⟨r'', hread, hstands⟩ := hcalm.readPlain hrest (List.cons_ne_nil d ds) hw hcs
  have htoken : r'.readToken d (ds ++ cs) = r'.readPlain := by
    rcases hd with hd | ⟨rfl, e, es, rfl, he⟩
    · exact readToken_letter hd
    · exact readToken_minus he
  exact ⟨r'', (hstep.trans (readNext_cons hrest)).trans (htoken.trans hread), hstands⟩

theorem Stands.quoted {gs : List Glyph} (h : r.Stands n ts (g ++ (Json.quoted gs ++ cs)))
    (hg : ∀ e ∈ g, isLayout e) (hmarks : Json.marksFrom [] gs = false) :
    ∃ r', r.step = .ok r' ∧ r'.Stands n (.scalar (Json.readString gs) false :: ts) cs := by
  obtain ⟨r', hstep, hcalm, rfl, rfl, hrest, -⟩ := h.step hg (starts_cons (by decide))
  obtain ⟨r'', hread, hstands, -⟩ := hcalm.readQuoted hrest hmarks
  exact ⟨r'', by rw [hstep, readNext_cons hrest, readToken_quote, hread], hstands⟩

/-- No token is a string in which the mark of a document starts a line. -/
theorem Stands.marked {gs : List Glyph} (h : r.Stands n ts (g ++ (Json.quoted gs ++ cs)))
    (hg : ∀ e ∈ g, isLayout e) (hmarks : Json.marksFrom [] gs = true) :
    r.step = .error .notYaml := by
  obtain ⟨r', hstep, hcalm, -, -, hrest, -⟩ := h.step hg (starts_cons (by decide))
  rw [hstep, readNext_cons hrest, readToken_quote, hcalm.readQuoted_marked hrest hmarks]

/-! ## Names -/

/-- The candidate at the start of a name is stale at the colon behind it unless the name fits. -/
theorem isStale_iff {c : Cursor} {gs : List Glyph} {gap : Gap}
    (h : c.rest = Json.quoted gs ++ (gap.unified ++ cs)) (number : Nat) (required : Bool) :
    Candidate.isStale ⟨number, required, c⟩
      ((c.skip (Json.quoted gs).length).skip gap.unified.length) = !Json.fits gs gap := by
  rw [← List.append_assoc] at h
  rw [← Cursor.skip_add, ← List.length_append, Candidate.isStale, Cursor.index_skip h]
  by_cases hline : ∀ d ∈ Json.quoted gs ++ gap.unified, isBreak d = false
  · have hfits : Json.fits gs gap = decide ((Json.quoted gs ++ gap.unified).length ≤ 1024) := by
      rw [Bool.eq_iff_iff, Json.fits_iff, decide_eq_true_eq]
      exact and_iff_right hline
    rw [hfits, Cursor.line_skip h hline, bne_self_eq_false, Bool.false_or,
      Nat.add_sub_cancel_left, ← decide_not]
    exact decide_eq_decide.2 Nat.not_le.symm
  · have hfits : Json.fits gs gap = false := by
      rw [← Bool.not_eq_true, Json.fits_iff]
      exact fun h => hline h.1
    push Not at hline
    obtain ⟨d, hd, hbreak⟩ := hline
    have hreturn : d ≠ '\r' := by
      rintro rfl
      exact Json.return_not_mem hd
    have hlt := Cursor.line_lt_skip h hd (Bool.not_eq_false _ ▸ hbreak) hreturn
    rw [hfits, bne_iff_ne.2 hlt.ne]
    rfl

/-- What a reader knows behind a name and before the white space in front of the colon: of this
depth there is one candidate, the name itself. -/
structure AfterName (r : Reader) (n : Nat) (ts : List Token) (gs : List Glyph) (gap : Gap)
    (cs : List Char) : Prop where
  stands : r.Stands n (.scalar (Json.readString gs) false :: ts) (gap.unified ++ ':' :: cs)
  rest : r.cursor.rest = gap.unified ++ ':' :: cs
  candidate : ∃ (k : Candidate) (others : List (Nat × Candidate)),
    r.candidates = (n, k) :: others ∧ (∀ o ∈ others, o.1 ≠ n) ∧ k.number + 1 = r.count ∧
      k.isStale (r.cursor.skip gap.unified.length) = !Json.fits gs gap

theorem Stands.afterName {gs : List Glyph} {gap : Gap} (hn : n ≠ 0)
    (h : r.Stands n ts (g ++ ((Lexeme.name gs gap).unified ++ cs)))
    (hg : ∀ e ∈ g, isLayout e) (hmarks : Json.marksFrom [] gs = false)
    (hallow : r.allowKey = true) :
    ∃ r', r.step = .ok r' ∧ r'.AfterName n ts gs gap cs := by
  rw [Lexeme.unified, List.append_assoc, List.append_assoc] at h
  obtain ⟨r₁, hstep, hcalm, rfl, rfl, hrest, hkey⟩ := h.step hg (starts_cons (by decide))
  obtain ⟨r', hread, hstands, hcursor, hcandidates⟩ := hcalm.readQuoted hrest hmarks
  have hstale := isStale_iff hrest r₁.count false
  rw [← hcursor] at hstale
  refine ⟨r', hstep.trans ((readNext_cons hrest).trans (readToken_quote.trans hread)), hstands,
    ?_, ?_⟩
  · rw [hcursor, Cursor.rest_skip_append hrest]
    rfl
  · refine ⟨⟨r₁.count, false, r₁.cursor⟩, r₁.candidates.filter fun k => !(k.1 == r₁.depth), ?_, ?_,
      ?_, hstale⟩
    · rw [hcandidates, noted_candidates ((hkey hn).trans hallow)]
    · intro o ho
      simpa using (List.mem_filter.1 ho).2
    · rw [hstands.calm.count, hstands.tokens, hcalm.count]
      rfl

/-- The colon behind a name makes it a key if it fits. -/
theorem AfterName.colon {gs : List Glyph} {gap : Gap} (h : r.AfterName n ts gs gap cs)
    (hn : n ≠ 0) (hgap : gap.chars.contains '\t' = false) :
    ∃ r', r.step = .ok r' ∧ r'.Stands n ((Lexeme.name gs gap).tokens.reverse ++ ts) cs := by
  obtain ⟨hstands, hrest, k, others, hcandidates, hothers, hnumber, hstale⟩ := h
  obtain ⟨allow, hstep, -⟩ := hstands.calm.step_eq hrest (Gap.isLayout_unified hgap)
    (starts_cons (by decide))
  have hcalm := hstands.calm.atToken gap.unified.length allow
  have hcolon : (r.atToken gap.unified.length allow).cursor.rest = ':' :: cs :=
    Cursor.rest_skip_append hrest
  have hfound : (r.atToken gap.unified.length allow).candidates =
      ((n, k) :: others).filter fun k => !k.2.isStale (r.cursor.skip gap.unified.length) := by
    rw [atToken, hcandidates]
  have hdepth : (r.atToken gap.unified.length allow).depth = n := hstands.depth
  have htokens : (r.atToken gap.unified.length allow).tokens =
      .scalar (Json.readString gs) false :: ts := hstands.tokens
  have hcount : k.number + 1 = (r.atToken gap.unified.length allow).count := hnumber
  generalize r.atToken gap.unified.length allow = r₁ at *
  subst hdepth
  rw [hstep, readNext_cons hcolon, readToken_colon hn, Lexeme.tokens]
  cases hfits : Json.fits gs gap with
  | true =>
    refine hcalm.readColon hcolon hn ?_ hcount htokens
    rw [hfound, List.filter_cons_of_pos (by rw [hstale, hfits]; rfl)]
    exact List.find?_cons_of_pos (beq_self_eq_true _)
  | false =>
    rw [if_neg Bool.false_ne_true, List.reverse_cons, List.reverse_cons, List.reverse_nil,
      List.nil_append, List.append_assoc, List.singleton_append, List.singleton_append, ← htokens]
    refine hcalm.readColon_alone hcolon hn ?_
    rw [hfound, List.filter_cons_of_neg (by rw [hstale, hfits]; decide), List.find?_eq_none]
    intro o ho
    simpa using hothers o (List.mem_filter.1 ho).1

theorem Stands.scalar {s : Scalar} (h : r.Stands n ts (g ++ (s.chars ++ cs)))
    (hg : ∀ e ∈ g, isLayout e) (hmarks : Json.marksFrom [] s.glyphs = false)
    (hcs : Plain.Stops (decide (n ≠ 0)) (cs.dropWhile isLayout)) :
    ∃ r', r.step = .ok r' ∧ r'.Stands n (s.token :: ts) cs := by
  rcases s.cases_token with ⟨gs, rfl⟩ | ⟨htoken, hstart, hpart⟩
  · exact h.quoted hg hmarks
  · rw [htoken]
    exact h.word hg (fun c hc => Json.isInner_of_isPart (hpart c hc)) hstart hcs

/-- No token is a lexeme in whose string the mark of a document starts a line. -/
theorem Stands.lexeme_marked {l : Lexeme} (h : r.Stands n ts (g ++ (l.unified ++ cs)))
    (hg : ∀ e ∈ g, isLayout e) (hmarks : Json.marksFrom [] l.glyphs = true) :
    r.step = .error .notYaml := by
  cases l with
  | scalar s =>
    cases s with
    | string gs => exact h.marked hg hmarks
    | _ => cases hmarks
  | name gs gap =>
    rw [Lexeme.unified, List.append_assoc] at h
    exact h.marked hg hmarks
  | _ => cases hmarks

end ModBuild.Yaml.Reader
