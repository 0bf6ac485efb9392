import ModBuild.Proofs.Yaml.Plain
import ModBuild.Proofs.Yaml.Quoted
import ModBuild.Yaml.Token.Stream
import Mathlib.Data.List.DropRight

/-!
# Steps of the reader in a text without indentation

Where no collection is shown by indentation, a reader never needs a key and never closes a
collection by itself.  Such a reader is *calm*.  Each of its steps skips white space, drops the
candidates that are stale, and reads the token that comes next.
-/

namespace ModBuild.Yaml.Reader

open Quoted (atMarker_cons)

variable {r : Reader} {d : Char} {g cs ds : List Char} {t : Token}

/-- No collection is shown by indentation, no candidate is the only thing that can start at its
place, and the tokens are counted. -/
structure Calm (r : Reader) : Prop where
  columns : r.columns = []
  optional : ∀ k ∈ r.candidates, k.2.required = false
  count : r.count = r.tokens.length

/-! ## Candidates -/

theorem Calm.dropCandidates (h : r.Calm) (p : Nat × Candidate → Bool) :
    r.dropCandidates p = .ok { r with candidates := r.candidates.filter (!p ·) } := by
  have hnone : (r.candidates.any fun k => p k && k.2.required) = false := by
    rw [List.any_eq_false]
    intro k hk
    rw [h.optional k hk, Bool.and_false]
    exact Bool.false_ne_true
  rw [Reader.dropCandidates, hnone]
  rfl

theorem Calm.close (h : r.Calm) (column : Option Nat) : r.close column = r := by
  obtain ⟨cursor, depth, columns, allowKey, candidates, tokens, count⟩ := r
  obtain rfl : columns = [] := h.columns
  simp [Reader.close, closeTo]

/-! ## White space -/

/-- What the skipping of white space stops at: no comment, no byte order mark and no other
character that is skipped. -/
def Starts (cs : List Char) : Prop :=
  ∀ d ∈ cs.head?, d ≠ '#' ∧ d ≠ '\uFEFF' ∧ isSpaceOrBreak d = false

theorem Starts.head_ne_space (h : Starts cs) : cs.head? ≠ some ' ' := by
  intro hspace
  exact absurd (h ' ' hspace).2.2 (by decide)

theorem Starts.sees_eq {c : Cursor} (h : Starts c.rest) : c.sees (· == '#') = false := by
  cases hrest : c.rest with
  | nil => exact Cursor.sees_nil hrest
  | cons d ds =>
    rw [Cursor.sees_cons hrest, beq_eq_false_iff_ne]
    exact (h d (by rw [hrest]; rfl)).1

theorem Starts.lineBreak?_eq {c : Cursor} (h : Starts c.rest) : c.lineBreak? = none := by
  cases hrest : c.rest with
  | nil => exact Cursor.lineBreak?_nil hrest
  | cons d ds =>
    have hd := (h d (by rw [hrest]; rfl)).2.2
    rw [isSpaceOrBreak, Bool.or_eq_false_iff] at hd
    exact Cursor.lineBreak?_of_not_isBreak hrest hd.2

theorem skipSpace_eq (h : r.cursor.rest = g ++ cs) (hg : ∀ e ∈ g, isLayout e) (hcs : Starts cs)
    {fuel : Nat} (hfuel : g.length < fuel) :
    ∃ allow, r.skipSpace fuel =
        { r with cursor := r.cursor.skip g.length, allowKey := allow } ∧
      (r.depth ≠ 0 → allow = r.allowKey) := by
  induction fuel generalizing r g with
  | zero => cases hfuel
  | succ fuel ih =>
    obtain ⟨s, hs, rfl | ⟨g', rfl⟩⟩ := Plain.exists_spaces hg
    · have hrest := Cursor.rest_skip_append h
      have hstarts : Starts (r.cursor.skip g.length).rest := hrest ▸ hcs
      refine ⟨r.allowKey, ?_, fun _ => rfl⟩
      rw [skipSpace, Cursor.skipRun, Plain.run_spaces h hs hcs.head_ne_space]
      simp only [hstarts.sees_eq, hstarts.lineBreak?_eq, Bool.false_eq_true, if_false]
    · rw [List.append_assoc] at h
      have hrest := Cursor.rest_skip_append h
      have hnext : (r.cursor.skip s.length).next.rest = g' ++ cs := by
        rw [Cursor.rest_next, hrest]
        rfl
      have hg' : ∀ e ∈ g', isLayout e := fun e he => hg e (by simp [he])
      have hsees : (r.cursor.skip s.length).sees (· == '#') = false := Cursor.sees_cons hrest
      obtain ⟨allow, hskip, hallow⟩ := ih
        (r := { r with
          cursor := (r.cursor.skip s.length).next, allowKey := r.allowKey || r.depth == 0 })
        hnext hg' (by simp at hfuel; omega)
      refine ⟨allow, ?_, fun hdepth => ?_⟩
      · rw [skipSpace, Cursor.skipRun, Plain.run_spaces h hs (by simp)]
        simp only [hsees, Cursor.lineBreak?_lineFeed hrest, Bool.false_eq_true, if_false]
        rw [hskip, List.length_append, Cursor.skip_add]
        rfl
      · rw [hallow hdepth, beq_eq_false_iff_ne.2 hdepth, Bool.or_false]

theorem skipToToken_eq (h : r.cursor.rest = g ++ cs) (hg : ∀ e ∈ g, isLayout e)
    (hcs : Starts cs) :
    ∃ allow, r.skipToToken = { r with cursor := r.cursor.skip g.length, allowKey := allow } ∧
      (r.depth ≠ 0 → allow = r.allowKey) := by
  have hmark : ¬ (r.cursor.index = 0 ∧ r.cursor.sees (· == '\uFEFF') = true) := by
    rintro ⟨-, hsees⟩
    cases g with
    | nil =>
      cases cs with
      | nil =>
        rw [Cursor.sees_nil h] at hsees
        cases hsees
      | cons d ds =>
        rw [List.nil_append] at h
        rw [Cursor.sees_cons h, beq_iff_eq] at hsees
        exact (hcs d rfl).2.1 hsees
    | cons e g =>
      rw [List.cons_append] at h
      rw [Cursor.sees_cons h, beq_iff_eq] at hsees
      have he := hg e List.mem_cons_self
      rw [hsees] at he
      cases he
  have hlength : g.length < r.cursor.rest.length + 1 := by
    rw [h, List.length_append]
    omega
  rw [skipToToken, if_neg hmark]
  exact skipSpace_eq h hg hcs hlength

/-- A reader that has moved to the next token. -/
def atToken (r : Reader) (n : Nat) (allow : Bool) : Reader :=
  { r with
    cursor := r.cursor.skip n
    allowKey := allow
    candidates := r.candidates.filter (!·.2.isStale (r.cursor.skip n)) }

/-- Read the token that comes next, or the end. -/
def readNext (r : Reader) : Except Fault Reader :=
  match r.cursor.rest with
  | [] => r.readEnd
  | d :: after => r.readToken d after

theorem Calm.atToken (hr : r.Calm) (n : Nat) (allow : Bool) : (r.atToken n allow).Calm :=
  ⟨hr.columns, fun k hk => hr.optional k (List.mem_filter.1 hk).1, hr.count⟩

theorem Calm.step_eq (hr : r.Calm) (h : r.cursor.rest = g ++ cs) (hg : ∀ e ∈ g, isLayout e)
    (hcs : Starts cs) :
    ∃ allow, r.step = (r.atToken g.length allow).readNext ∧
      (r.depth ≠ 0 → allow = r.allowKey) := by
  obtain ⟨allow, hskip, hallow⟩ := skipToToken_eq h hg hcs
  refine ⟨allow, ?_, hallow⟩
  have hmoved : ({ r with cursor := r.cursor.skip g.length, allowKey := allow } : Reader).Calm :=
    ⟨hr.columns, hr.optional, hr.count⟩
  have hdrop : r.skipToToken.dropStale = .ok (r.atToken g.length allow) := by
    rw [hskip]
    exact hmoved.dropCandidates _
  have hclose := (hr.atToken g.length allow).close (some (r.atToken g.length allow).cursor.column)
  rw [step, hdrop]
  change (match (r.atToken g.length allow).cursor.rest with
    | [] => _
    | d :: after => _) = _
  rw [hclose]
  rfl

/-! ## Tokens

A token is read without a look at what is behind it, unless it is a plain scalar. -/

/-- Where a calm reader stands: how deep in brackets, behind which tokens, the last first, and
before which text, apart from white space. -/
structure Stands (r : Reader) (depth : Nat) (ts : List Token) (cs : List Char) : Prop where
  calm : r.Calm
  depth : r.depth = depth
  tokens : r.tokens = ts
  rest : r.cursor.rest.dropWhile isLayout = cs.dropWhile isLayout

/-- A reader with a candidate noted, if a key is allowed. -/
def noted (r : Reader) : Reader :=
  if r.allowKey then
    { r with
      candidates := (r.depth, ⟨r.count, false, r.cursor⟩) ::
        r.candidates.filter fun k => !(k.1 == r.depth) }
  else
    r

theorem Calm.noteCandidate (hr : r.Calm) : r.noteCandidate = .ok r.noted := by
  unfold Reader.noteCandidate noted
  split
  · rw [dropHere, hr.dropCandidates]
    simp [hr.columns, bind, Except.bind, pure, Except.pure]
  · rfl

theorem Calm.noted (hr : r.Calm) : r.noted.Calm := by
  unfold Reader.noted
  split
  · refine ⟨hr.columns, List.forall_mem_cons.2 ⟨rfl, ?_⟩, hr.count⟩
    exact fun k hk => hr.optional k (List.mem_filter.1 hk).1
  · exact hr

theorem noted_candidates (h : r.allowKey = true) :
    r.noted.candidates = (r.depth, ⟨r.count, false, r.cursor⟩) ::
      r.candidates.filter fun k => !(k.1 == r.depth) := by
  rw [Reader.noted, if_pos h]

@[simp] theorem noted_cursor : r.noted.cursor = r.cursor := by
  unfold noted
  split <;> rfl

@[simp] theorem noted_depth : r.noted.depth = r.depth := by
  unfold noted
  split <;> rfl

@[simp] theorem noted_tokens : r.noted.tokens = r.tokens := by
  unfold noted
  split <;> rfl

@[simp] theorem noted_columns : r.noted.columns = r.columns := by
  unfold noted
  split <;> rfl

theorem Calm.readOpening (hr : r.Calm) (h : r.cursor.rest = d :: ds) (t : Token) :
    ∃ r', r.readOpening t = .ok r' ∧ r'.Stands (r.depth + 1) (t :: r.tokens) ds ∧
      r'.allowKey = true := by
  have hcalm := hr.noted
  refine ⟨_, by rw [Reader.readOpening, hr.noteCandidate]; rfl, ?_, rfl⟩
  refine ⟨⟨hcalm.columns, hcalm.optional, ?_⟩, ?_, ?_, ?_⟩
  · simp [push, Reader.skip, hcalm.count]
  · simp [push, Reader.skip]
  · simp [push, Reader.skip]
  · simp [push, Reader.skip, h]

theorem Calm.readClosing (hr : r.Calm) (h : r.cursor.rest = d :: ds) (t : Token) :
    ∃ r', r.readClosing t = .ok r' ∧ r'.Stands (r.depth - 1) (t :: r.tokens) ds := by
  refine ⟨_, by rw [Reader.readClosing, dropHere, hr.dropCandidates]; rfl, ?_⟩
  refine ⟨⟨hr.columns, fun k hk => hr.optional k (List.mem_filter.1 hk).1, ?_⟩, rfl, rfl, ?_⟩
  · simp [push, Reader.skip, hr.count]
  · simp [push, Reader.skip, h]

theorem Calm.readComma (hr : r.Calm) (h : r.cursor.rest = d :: ds) :
    ∃ r', r.readComma = .ok r' ∧ r'.Stands r.depth (.flowEntry :: r.tokens) ds ∧
      r'.allowKey = true := by
  have hallowed : ({ r with allowKey := true } : Reader).Calm := ⟨hr.columns, hr.optional, hr.count⟩
  refine ⟨_, by rw [Reader.readComma, dropHere, hallowed.dropCandidates]; rfl, ?_, rfl⟩
  refine ⟨⟨hr.columns, fun k hk => hr.optional k (List.mem_filter.1 hk).1, ?_⟩, rfl, rfl, ?_⟩
  · simp [push, Reader.skip, hr.count]
  · simp [push, Reader.skip, h]

theorem Calm.readEnd (hr : r.Calm) :
    ∃ r', r.readEnd = .ok r' ∧ r'.tokens = .streamEnd :: r.tokens := by
  refine ⟨_, by rw [Reader.readEnd, hr.close, dropHere, hr.dropCandidates]; rfl, rfl⟩

theorem Calm.readPlain {w : List Char} (hr : r.Calm) (h : r.cursor.rest = w ++ cs) (hne : w ≠ [])
    (hw : ∀ e ∈ w, Plain.isInner e)
    (hcs : Plain.Stops (decide (r.depth ≠ 0)) (cs.dropWhile isLayout)) :
    ∃ r', r.readPlain = .ok r' ∧ r'.Stands r.depth (.scalar (.ofList w) true :: r.tokens) cs := by
  have hcalm := hr.noted
  have hsplit : r.noted.cursor.rest = w ++ (cs.takeWhile isLayout ++ cs.dropWhile isLayout) := by
    rw [noted_cursor, h, List.takeWhile_append_dropWhile]
  have hlayout : ∀ e ∈ cs.takeWhile isLayout, isLayout e := fun e he => List.mem_takeWhile_imp he
  rw [← noted_depth] at hcs
  obtain ⟨broken, hscan⟩ := Plain.scan_word hsplit hne hw hlayout hcs r.noted.indent
  refine ⟨_, by rw [Reader.readPlain, hr.noteCandidate]; exact rfl, ?_⟩
  rw [hscan]
  refine ⟨⟨hcalm.columns, hcalm.optional, ?_⟩, ?_, ?_, ?_⟩
  · simp [push, hcalm.count]
  · simp [push]
  · simp [push]
  · simp only [push, Cursor.skip_add]
    rw [Cursor.rest_skip_append (Cursor.rest_skip_append hsplit), List.dropWhile_idempotent]

theorem Calm.readQuoted {gs : List Json.Glyph} (hr : r.Calm)
    (h : r.cursor.rest = Json.quoted gs ++ cs) (hmarks : Json.marksFrom [] gs = false) :
    ∃ r', r.readQuoted true = .ok r' ∧
      r'.Stands r.depth (.scalar (Json.readString gs) false :: r.tokens) cs ∧
      r'.cursor = r.cursor.skip (Json.quoted gs).length ∧ r'.candidates = r.noted.candidates := by
  have hcalm := hr.noted
  have hscan := Quoted.scan_quoted h
  rw [Quoted.outcome, hmarks] at hscan
  have hread : r.readQuoted true =
      .ok (({ r.noted with
        allowKey := false
        cursor := r.cursor.skip (Json.quoted gs).length } : Reader).push
          (.scalar (Json.readString gs) false)) := by
    rw [Reader.readQuoted, hr.noteCandidate]
    simp only [bind, Except.bind, hscan, noted_cursor]
    rfl
  refine ⟨_, hread, ⟨⟨hcalm.columns, hcalm.optional, ?_⟩, ?_, ?_, ?_⟩, rfl, rfl⟩
  · simp [push, hcalm.count]
  · simp [push]
  · simp [push]
  · simp only [push]
    rw [Cursor.rest_skip_append h]

/-- No string is read in which the mark of a document starts a line. -/
theorem Calm.readQuoted_marked {gs : List Json.Glyph} (hr : r.Calm)
    (h : r.cursor.rest = Json.quoted gs ++ cs) (hmarks : Json.marksFrom [] gs = true) :
    r.readQuoted true = .error .notYaml := by
  have hscan := Quoted.scan_quoted h
  rw [Quoted.outcome, hmarks] at hscan
  rw [Reader.readQuoted, hr.noteCandidate]
  simp only [bind, Except.bind, hscan, noted_cursor]
  rfl

/-- Behind a candidate of this depth for the last token, a colon makes that token a key. -/
theorem Calm.readColon (hr : r.Calm) (h : r.cursor.rest = ':' :: ds) (hdepth : r.depth ≠ 0)
    {k : Candidate} (hfind : r.candidates.find? (·.1 == r.depth) = some (r.depth, k))
    (hnumber : k.number + 1 = r.count) {ts : List Token} (htokens : r.tokens = t :: ts) :
    ∃ r', r.readColon = .ok r' ∧ r'.Stands r.depth (.value :: t :: .key :: ts) ds := by
  have hlater : r.count - k.number = 1 := by omega
  have hopens : (r.depth == 0) = false := beq_eq_false_iff_ne.2 hdepth
  have hread : r.readColon =
      .ok ((({ r with
        candidates := r.candidates.filter fun k => k.1 != r.depth
        tokens := t :: .key :: ts
        count := r.count + 1
        allowKey := false } : Reader).skip 1).push .value) := by
    unfold Reader.readColon
    rw [hfind]
    simp [insert, hlater, htokens, hopens, pure, Except.pure]
  refine ⟨_, hread, ⟨hr.columns, fun k hk => hr.optional k (List.mem_filter.1 hk).1, ?_⟩, rfl,
    rfl, ?_⟩
  · simp [push, Reader.skip, hr.count, htokens]
  · simp [push, Reader.skip, h]

/-- Without a candidate of this depth, a colon is a value without a key. -/
theorem Calm.readColon_alone (hr : r.Calm) (h : r.cursor.rest = ':' :: ds) (hdepth : r.depth ≠ 0)
    (hfind : r.candidates.find? (·.1 == r.depth) = none) :
    ∃ r', r.readColon = .ok r' ∧ r'.Stands r.depth (.value :: r.tokens) ds := by
  have hmoved : ({ r with allowKey := r.depth == 0 } : Reader).Calm :=
    ⟨hr.columns, hr.optional, hr.count⟩
  have hread : r.readColon =
      .ok ((({ r with
        allowKey := r.depth == 0
        candidates := r.candidates.filter fun k => !(k.1 == r.depth) } : Reader).skip 1).push
          .value) := by
    unfold Reader.readColon
    simp only [hfind]
    rw [openHere, if_pos hdepth]
    simp only [bind, Except.bind, dropHere, hmoved.dropCandidates]
    rfl
  refine ⟨_, hread, ⟨hr.columns, fun k hk => hr.optional k (List.mem_filter.1 hk).1, ?_⟩, rfl,
    rfl, ?_⟩
  · simp [push, Reader.skip, hr.count]
  · simp [push, Reader.skip, h]

/-! ## The character that a token starts with -/

theorem readNext_cons (h : r.cursor.rest = d :: ds) : r.readNext = r.readToken d ds := by
  rw [readNext, h]

theorem readNext_nil (h : r.cursor.rest = []) : r.readNext = r.readEnd := by
  rw [readNext, h]

theorem readToken_openArray : r.readToken '[' ds = r.readOpening .flowSequenceStart := by
  simp [readToken, atMarker_cons]

theorem readToken_closeArray : r.readToken ']' ds = r.readClosing .flowSequenceEnd := by
  simp [readToken, atMarker_cons]

theorem readToken_openObject : r.readToken '{' ds = r.readOpening .flowMappingStart := by
  simp [readToken, atMarker_cons]

theorem readToken_closeObject : r.readToken '}' ds = r.readClosing .flowMappingEnd := by
  simp [readToken, atMarker_cons]

theorem readToken_comma : r.readToken ',' ds = r.readComma := by
  simp [readToken, atMarker_cons]

theorem readToken_colon (hdepth : r.depth ≠ 0) : r.readToken ':' ds = r.readColon := by
  simp [readToken, atMarker_cons, hdepth]

theorem readToken_quote : r.readToken '"' ds = r.readQuoted true := by
  simp [readToken, atMarker_cons]

/-- A tab is no token, nor the start of one. -/
theorem readToken_tab : r.readToken '\t' ds = .error .notYaml := by
  simp [readToken, atMarker_cons, startsPlain, isBlank, isWhite]

theorem readToken_letter (hd : d.isAlphanum = true) : r.readToken d ds = r.readPlain := by
  have hne : ∀ e : Char, e.isAlphanum = false → d ≠ e := by
    rintro e he rfl
    rw [hd] at he
    cases he
  have hplain : r.startsPlain d ds = true := by
    have hblank : isBlank d = false := by
      rw [← Bool.not_eq_true]
      exact fun h => hne d (Plain.isBlank_not_isAlphanum d h) rfl
    have hindicator : isIndicator d = false := by
      rw [← Bool.not_eq_true]
      exact fun h => hne d (Plain.isIndicator_not_isAlphanum d h) rfl
    rw [startsPlain, hblank, hindicator]
    rfl
  simp [readToken, hplain, atMarker_cons (hne '-' (by decide)), atMarker_cons (hne '.' (by decide)),
    hne '%' (by decide), hne '[' (by decide), hne '{' (by decide), hne ']' (by decide),
    hne '}' (by decide), hne ',' (by decide), hne '-' (by decide), hne '?' (by decide),
    hne ':' (by decide), hne '*' (by decide), hne '&' (by decide), hne '!' (by decide),
    hne '|' (by decide), hne '>' (by decide), hne '\'' (by decide), hne '"' (by decide)]

theorem readToken_minus {e : Char} {es : List Char} (he : e.isDigit = true) :
    r.readToken '-' (e :: es) = r.readPlain := by
  have hblank : isBlank e = false := by
    rw [← Bool.not_eq_true]
    intro h
    have halpha := Plain.isBlank_not_isAlphanum e h
    rw [Char.isAlphanum, he, Bool.or_true] at halpha
    cases halpha
  have hmarker : atMarker '-' ('-' :: e :: es) = false := by
    have hne : e ≠ '-' := by
      rintro rfl
      cases he
    cases es <;> simp [atMarker, hne]
  simp [readToken, hmarker, atMarker_cons, startsPlain, startsOrEnds, hblank]

end ModBuild.Yaml.Reader
