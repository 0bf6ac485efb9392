import ModBuild.Proofs.Json.Layout
import ModBuild.Proofs.Yaml.Cursor
import ModBuild.Yaml.Token.Quoted
import Mathlib.Algebra.Order.Group.Nat
import Mathlib.Data.List.Induction

/-!
# Strings of JSON between double quotes

A string of JSON is a quoted scalar of YAML.  Every character of it is read as JSON reads it,
with two exceptions: the two halves of a pair of surrogates are read one by one, and blanks that
hold line breaks are folded.  No string can be read in which the mark of a document starts a
line.

Blanks are read all at once, so the proof goes through a string with the blanks that it has come
across and that are not read yet.
-/

namespace ModBuild.Yaml.Quoted

open Json (Glyph fold endsLine marksFrom readFrom)

variable {c c' : Cursor} {d : Char} {e w cs ds : List Char} {fuel least : Nat}
  {x : Except Fault (List Char × Cursor)}

/-! ## One step -/

/-- What is read, with some characters in front. -/
def prepend (e : List Char) (x : Except Fault (List Char × Cursor)) :
    Except Fault (List Char × Cursor) :=
  x.map fun r => (e ++ r.1, r.2)

theorem prepend_ok : prepend e (.ok (cs, c)) = .ok (e ++ cs, c) := rfl

theorem prepend_prepend {e' : List Char} : prepend e (prepend e' x) = prepend (e ++ e') x := by
  cases x with
  | error f => rfl
  | ok r => exact congrArg (fun cs => Except.ok (cs, r.2)) (List.append_assoc e e' r.1).symm

theorem prepend_nil : prepend [] x = x := by
  cases x <;> rfl

theorem inside_close (h : c.rest = '"' :: ds) : inside true c (fuel + 1) = .ok ([], c.next) := by
  unfold inside
  rw [h]
  rfl

theorem inside_of_not_mark (h : c.rest = d :: ds) (hmark : d ≠ '"' ∧ d ≠ '\\') :
    inside true c (fuel + 1) =
      if isBlank d then spaces c >>= fun r => prepend r.1 (inside true r.2 fuel)
      else prepend [d] (inside true c.next fuel) := by
  have hprepend : ∀ (e : List Char) (c : Cursor),
      (inside true c fuel >>= fun r => pure (e ++ r.1, r.2)) = prepend e (inside true c fuel) := by
    intro e c
    cases inside true c fuel <;> rfl
  rw [inside, h]
  split
  · next heq => cases heq
  · next heq =>
    cases heq
    exact hprepend ['\''] c.next
  · next heq =>
    cases heq
    rw [if_neg (by simp [hmark.1]), if_neg (by simp [hmark.2])]
    simp only [hprepend]
    exact congrArg (ite _ _) (hprepend [_] c.next)

theorem inside_escape (h : c.rest = '\\' :: ds) (hescape : escape c.next = .ok (e, c')) :
    inside true c (fuel + 1) = prepend e (inside true c' fuel) := by
  rw [inside, h]
  simp only [hescape, bind, Except.bind, pure, Except.pure]
  cases inside true c' fuel <;> rfl

/-! ## Blanks -/

theorem atMarker_cons {mark : Char} (hd : d ≠ mark) : atMarker mark (d :: ds) = false := by
  rcases ds with _ | ⟨e, _ | ⟨f, ds⟩⟩
  · rfl
  · rfl
  · simp [atMarker, hd]

theorem atAnyMarker_cons (hdash : d ≠ '-') (hdot : d ≠ '.') : atAnyMarker (d :: ds) = false := by
  rw [atAnyMarker, atMarker_cons hdash, atMarker_cons hdot]
  rfl

theorem atAnyMarker_blank (hd : isBlank d = true) : atAnyMarker (d :: ds) = false := by
  refine atAnyMarker_cons ?_ ?_ <;> (rintro rfl; cases hd)

/-- Behind a character that is no part of a mark nothing matters for the mark. -/
theorem atMarker_append {mark : Char} (hmark : d ≠ mark) :
    atMarker mark (cs ++ d :: ds) = atMarker mark (cs ++ [d]) := by
  rcases cs with _ | ⟨e, _ | ⟨f, _ | ⟨g, _ | ⟨h, cs⟩⟩⟩⟩
  · rw [List.nil_append, List.nil_append, atMarker_cons hmark, atMarker_cons hmark]
  · rcases ds with _ | ⟨f, ds⟩
    · rfl
    · simp [atMarker, hmark]
  · rw [List.cons_append, List.cons_append, List.nil_append, List.cons_append, List.cons_append,
      List.nil_append, atMarker, atMarker, beq_eq_false_iff_ne.2 hmark]
    simp
  · simp [atMarker, startsOrEnds]
  · rfl

theorem isBreak_of_isWhite (hd : isWhite d = true) : isBreak d = false := by
  rw [isWhite, Bool.or_eq_true, beq_iff_eq, beq_iff_eq] at hd
  rcases hd with rfl | rfl <;> decide

/-- Blanks start with some that end no line. -/
theorem exists_whites (hw : ∀ e ∈ w, isBlank e = true) : ∃ s, (∀ e ∈ s, isWhite e = true) ∧
    (w = s ∨ ∃ b w', w = s ++ b :: w' ∧ isBreak b = true) := by
  induction w with
  | nil => exact ⟨[], List.forall_mem_nil _, Or.inl rfl⟩
  | cons e w ih =>
    obtain ⟨he, hw⟩ := List.forall_mem_cons.1 hw
    rcases Bool.or_eq_true _ _ ▸ he with hwhite | hbreak
    · obtain ⟨s, hs, rfl | ⟨b, w', rfl, hb⟩⟩ := ih hw
      · exact ⟨e :: w, List.forall_mem_cons.2 ⟨hwhite, hs⟩, Or.inl rfl⟩
      · exact ⟨e :: s, List.forall_mem_cons.2 ⟨hwhite, hs⟩, Or.inr ⟨b, w', rfl, hb⟩⟩
    · exact ⟨[], List.forall_mem_nil _, Or.inr ⟨e, w, rfl, hbreak⟩⟩

theorem run_whites (h : c.rest = w ++ d :: ds) (hw : ∀ e ∈ w, isWhite e = true)
    (hd : isWhite d = false) : c.run isWhite = w := by
  rw [Cursor.run, h, List.takeWhile_append_of_pos hw,
    List.takeWhile_cons_of_neg (by simp [hd]), List.append_nil]

theorem filter_whites (hw : ∀ e ∈ w, isWhite e = true) : w.filter isBreak = [] :=
  List.filter_eq_nil_iff.2 fun e he => by simp [isBreak_of_isWhite (hw e he)]

theorem endsLine_append (b : Char) (w' : List Char) :
    endsLine (w ++ b :: w') = endsLine (b :: w') := by
  rw [endsLine, endsLine, List.getLast?_append, List.getLast?_cons, Option.some_or]

theorem endsLine_whites (hw : ∀ e ∈ w, isWhite e = true) : endsLine w = false := by
  rw [endsLine]
  cases hlast : w.getLast? with
  | none => rfl
  | some e => exact isBreak_of_isWhite (hw e (List.mem_of_getLast? hlast))

/-- The line break behind blanks that end no line. -/
theorem break_behind {b : Char} (h : c.rest = w ++ b :: cs) (hw : ∀ e ∈ w, isWhite e = true)
    (hb : isBreak b = true) (hreturn : b ≠ '\r') :
    c.run isWhite = w ∧
      (c.skip w.length).lineBreak? = some (Json.readBreak b, (c.skip w.length).next) ∧
      (c.skip w.length).next.rest = cs := by
  have hwhite : isWhite b = false := by
    rw [← Bool.not_eq_true]
    intro hwhite
    rw [isBreak_of_isWhite hwhite] at hb
    cases hb
  have hrest := Cursor.rest_skip_append h
  refine ⟨run_whites h hw hwhite, Cursor.lineBreak?_of_isBreak hrest hb hreturn, ?_⟩
  rw [Cursor.rest_next, hrest]
  rfl

theorem skip_append {b : Char} (c : Cursor) (w w' : List Char) :
    c.skip (w ++ b :: w').length = (c.skip w.length).next.skip w'.length := by
  rw [List.length_append, List.length_cons, Cursor.skip_add, Cursor.skip_succ]

theorem filter_append {b : Char} (hw : ∀ e ∈ w, isWhite e = true) (hb : isBreak b = true)
    (w' : List Char) : (w ++ b :: w').filter isBreak = b :: w'.filter isBreak := by
  rw [List.filter_append, filter_whites hw, List.nil_append, List.filter_cons_of_pos hb]

/-- The blanks at the start of a line, before a character that is none. -/
theorem breaks_eq {b : Char} (hb : isBreak b = true) (h : c.rest = w ++ d :: ds)
    (hw : ∀ e ∈ w, isBlank e = true ∧ e ≠ '\r') (hd : isBlank d = false)
    (hfuel : w.length < fuel) :
    breaks c fuel = if endsLine (b :: w) && atAnyMarker (d :: ds) then .error .notYaml
      else .ok ((w.filter isBreak).map Json.readBreak, c.skip w.length) := by
  obtain ⟨hwhite, hbreak⟩ := Bool.or_eq_false_iff.1 hd
  -- Each call reads up to the next line break, so `b` is the break that the line starts behind.
  induction fuel generalizing c w b with
  | zero => cases hfuel
  | succ fuel ih =>
    obtain ⟨s, hs, rfl | ⟨b', w', rfl, hb'⟩⟩ := exists_whites fun e he => (hw e he).1
    · have hmarker : atAnyMarker c.rest = (endsLine (b :: w) && atAnyMarker (d :: ds)) := by
        rw [h]
        cases w with
        | nil => simp [endsLine, hb]
        | cons e w =>
          rw [List.cons_append, atAnyMarker_blank (hw e List.mem_cons_self).1,
            ← List.singleton_append, endsLine_append, endsLine_whites hs, Bool.false_and]
      have hline := Cursor.lineBreak?_of_not_isBreak (Cursor.rest_skip_append h) hbreak
      rw [breaks, hmarker, Cursor.skipRun, run_whites h hs hwhite]
      simp only [hline, filter_whites hs, List.map_nil]
    · have hmarker : atAnyMarker c.rest = false := by
        rw [h]
        cases s with
        | nil => exact atAnyMarker_blank (hw b' (by simp)).1
        | cons e s => exact atAnyMarker_blank (hw e (by simp)).1
      rw [List.append_assoc, List.cons_append] at h
      obtain ⟨hrun, hline, hnext⟩ := break_behind h hs hb' (hw b' (by simp)).2
      have hlater := ih hb' hnext (fun e he => hw e (by simp [he])) (by simp at hfuel; omega)
      rw [breaks, hmarker, Cursor.skipRun, hrun, ← List.cons_append, endsLine_append,
        filter_append hs hb', skip_append]
      simp only [hline, hlater]
      cases endsLine (b' :: w') && atAnyMarker (d :: ds) <;> rfl

/-- The blanks before a character that is none. -/
theorem spaces_eq (h : c.rest = w ++ d :: ds) (hw : ∀ e ∈ w, isBlank e = true ∧ e ≠ '\r')
    (hd : isBlank d = false) :
    spaces c = if endsLine w && atAnyMarker (d :: ds) then .error .notYaml
      else .ok (fold w, c.skip w.length) := by
  obtain ⟨hwhite, hbreak⟩ := Bool.or_eq_false_iff.1 hd
  obtain ⟨s, hs, rfl | ⟨b, w', rfl, hb⟩⟩ := exists_whites fun e he => (hw e he).1
  · have hrest := Cursor.rest_skip_append h
    have hline := Cursor.lineBreak?_of_not_isBreak hrest hbreak
    rw [endsLine_whites hs, Json.fold_eq_self fun e he => isBreak_of_isWhite (hs e he)]
    unfold spaces
    simp only [run_whites h hs hwhite, hrest, hline]
    rfl
  · rw [List.append_assoc, List.cons_append] at h
    obtain ⟨hrun, hline, hnext⟩ := break_behind h hs hb (hw b (by simp)).2
    have hlength : w'.length < (c.skip s.length).next.rest.length + 1 := by
      rw [hnext, List.length_append]
      omega
    have hlater := breaks_eq hb hnext (fun e he => hw e (by simp [he])) hd hlength
    rw [endsLine_append, skip_append, fold, filter_append hs hb]
    unfold spaces
    simp only [hrun, Cursor.rest_skip_append h, hline, hlater]
    cases endsLine (b :: w') && atAnyMarker (d :: ds) <;> rfl

/-! ## Escapes -/

theorem hexValue_lt {e : Char} (h : isHex e = true) : hexValue e < 16 := by
  simp only [isHex, Char.isDigit, Bool.or_eq_true, Bool.and_eq_true, decide_eq_true_eq,
    Char.le_def, UInt32.le_iff_toNat_le] at h
  simp only [hexValue, Char.isDigit, Char.le_def, UInt32.le_iff_toNat_le, Bool.and_eq_true,
    decide_eq_true_eq, Char.toNat]
  split <;> [skip; split] <;> simp at * <;> omega

theorem hexNumber_lt {w : List Char} (h : ∀ e ∈ w, isHex e = true) :
    hexNumber w < 16 ^ w.length := by
  induction w using List.reverseRecOn with
  | nil => decide
  | append_singleton w e ih =>
    have hw : hexNumber w < 16 ^ w.length := ih fun f hf => h f (by simp [hf])
    have he : hexValue e < 16 := hexValue_lt (h e (by simp))
    have hstep : hexNumber (w ++ [e]) = 16 * hexNumber w + hexValue e := by
      rw [hexNumber, List.foldl_append]
      rfl
    rw [hstep, List.length_append, List.length_singleton, pow_succ]
    omega

theorem escape_short {letter e : Char} (hletter : Json.short? letter = some e)
    (h : c.rest = letter :: ds) : escape c = .ok ([e], c.next) := by
  have hshort : shortEscape? letter = some e := by
    unfold Json.short? at hletter
    split at hletter <;> first | exact hletter | cases hletter
  unfold escape
  simp only [h, hshort]

theorem escape_number (n : Json.Hex) (h : c.rest = 'u' :: (n.digits ++ ds)) :
    escape c = .ok ([if 0xD800 ≤ n.value ∧ n.value ≤ 0xDFFF then '\uFFFD' else .ofNat n.value],
      c.skip 5) := by
  have hlt : hexNumber n.digits < 0x10000 := by
    have hlt := hexNumber_lt (List.all_eq_true.1 n.isHex)
    rwa [n.length] at hlt
  have htake : (n.digits ++ ds).take 4 = n.digits := by
    rw [← n.length, List.take_left]
  have hcharacter : character (hexNumber n.digits) =
      .ok (if 0xD800 ≤ n.value ∧ n.value ≤ 0xDFFF then '\uFFFD' else .ofNat n.value) := by
    rw [character, if_neg (by omega), if_neg (by omega)]
    exact (apply_ite Except.ok _ _ _).symm
  unfold escape
  simp [h, shortEscape?, numberLength?, numbered, htake, n.length, n.isHex, hcharacter,
    Cursor.skip_succ, bind, Except.bind, pure, Except.pure]

/-! ## Reading on

What is read is a matter of the text alone: any fuel that exceeds its length will do. -/

/-- What comes of reading from a cursor on, with fuel for more than some number of characters. -/
def Reads (c : Cursor) (least : Nat) (x : Except Fault (List Char × Cursor)) : Prop :=
  ∀ fuel, least < fuel → inside true c fuel = x

theorem Reads.mono {more : Nat} (h : Reads c least x) (hle : least ≤ more) : Reads c more x :=
  fun fuel hfuel => h fuel (Nat.lt_of_le_of_lt hle hfuel)

theorem Reads.mark (h : c.rest = '"' :: ds) : Reads c 0 (.ok ([], c.next)) := by
  intro fuel hfuel
  obtain ⟨fuel, rfl⟩ := Nat.exists_eq_succ_of_ne_zero (Nat.ne_zero_of_lt hfuel)
  exact inside_close h

theorem Reads.plain (h : c.rest = d :: ds) (hmark : d ≠ '"' ∧ d ≠ '\\')
    (hblank : isBlank d = false) (hrest : Reads c.next least x) :
    Reads c (least + 1) (prepend [d] x) := by
  intro fuel hfuel
  obtain ⟨fuel, rfl⟩ := Nat.exists_eq_succ_of_ne_zero (Nat.ne_zero_of_lt hfuel)
  rw [inside_of_not_mark h hmark, hblank, hrest fuel (Nat.lt_of_succ_lt_succ hfuel)]
  rfl

theorem Reads.escape {c₁ : Cursor} (h : c.rest = '\\' :: ds)
    (hescape : Quoted.escape c.next = .ok (e, c₁)) (hrest : Reads c₁ least x) :
    Reads c (least + 1) (prepend e x) := by
  intro fuel hfuel
  obtain ⟨fuel, rfl⟩ := Nat.exists_eq_succ_of_ne_zero (Nat.ne_zero_of_lt hfuel)
  rw [inside_escape h hescape, hrest fuel (Nat.lt_of_succ_lt_succ hfuel)]

theorem Reads.blanks (h : c.rest = w ++ d :: ds) (hw : ∀ e ∈ w, isBlank e = true ∧ e ≠ '\r')
    (hd : isBlank d = false) (hrest : Reads (c.skip w.length) least x) :
    Reads c (least + w.length)
      (if endsLine w && atAnyMarker (d :: ds) then .error .notYaml else prepend (fold w) x) := by
  cases w with
  | nil => exact (prepend_nil (x := x)).symm ▸ hrest
  | cons e w =>
    intro fuel hfuel
    obtain ⟨fuel, rfl⟩ := Nat.exists_eq_succ_of_ne_zero (Nat.ne_zero_of_lt hfuel)
    obtain ⟨he, -⟩ := hw e List.mem_cons_self
    have hmark : e ≠ '"' ∧ e ≠ '\\' := by
      constructor <;> (rintro rfl; cases he)
    have hlater := hrest fuel (by simp at hfuel; omega)
    rw [inside_of_not_mark h hmark, if_pos he, spaces_eq h hw hd]
    cases endsLine (e :: w) && atAnyMarker (d :: ds) with
    | true => rfl
    | false => exact congrArg (prepend (fold (e :: w))) hlater

/-! ## Strings -/

theorem isBlank_of_plain {hd : Json.isUnescaped d} (h : (Glyph.plain d hd).blank? = none) :
    isBlank d = false := by
  rw [Glyph.blank?] at h
  split at h
  · cases h
  · next hblank => exact Bool.not_eq_true _ ▸ hblank

theorem blank_of_blank? {g : Glyph} {e : Char} (h : g.blank? = some e) :
    g.chars = [e] ∧ isBlank e = true ∧ e ≠ '\r' := by
  cases g with
  | plain d hd =>
    rw [Glyph.blank?] at h
    split at h
    · next hblank =>
      obtain rfl := Option.some.inj h
      refine ⟨rfl, hblank, ?_⟩
      rintro rfl
      exact absurd hd (by decide)
    · cases h
  | _ => cases h

/-- The spelling of a character that is no blank starts with no blank. -/
theorem exists_chars_eq_cons {g : Glyph} (h : g.blank? = none) :
    ∃ d ds, g.chars = d :: ds ∧ isBlank d = false := by
  cases g with
  | plain d hd => exact ⟨d, [], rfl, isBlank_of_plain h⟩
  | _ => exact ⟨'\\', _, rfl, by decide⟩

/-- A character that is no blank is read with its spelling taken off. -/
theorem Reads.glyph {g : Glyph} (hg : g.blank? = none) (h : c.rest = g.chars ++ ds)
    (hrest : Reads (c.skip g.chars.length) least x) :
    Reads c (least + g.chars.length) (prepend g.read x) := by
  cases g with
  | plain d hd =>
    have hmark := hd
    simp only [Json.isUnescaped, Bool.and_eq_true, bne_iff_ne, decide_eq_true_eq] at hmark
    exact hrest.plain h ⟨hmark.1.2, hmark.2⟩ (isBlank_of_plain hg)
  | short letter e hletter =>
    have hnext : c.next.rest = letter :: ds := by rw [Cursor.rest_next, h]; rfl
    exact (hrest.escape h (escape_short hletter hnext)).mono (by simp [Glyph.chars])
  | number n hn' =>
    have hn := hn'
    have hnext : c.next.rest = 'u' :: (n.digits ++ ds) := by rw [Cursor.rest_next, h]; rfl
    have hescape := escape_number n hnext
    simp only [Json.isHigh, Json.isLow, Bool.and_eq_false_iff, decide_eq_false_iff_not] at hn
    rw [if_neg (by omega), ← Cursor.skip_succ] at hescape
    have hlength : (Glyph.number n hn').chars.length = 6 := by simp [Glyph.chars, n.length]
    rw [hlength] at hrest ⊢
    exact (hrest.escape h hescape).mono (by omega)
  | pair high low hpair' =>
    have hpair := hpair'
    have hnext : c.next.rest = 'u' :: (high.digits ++ ('\\' :: 'u' :: (low.digits ++ ds))) := by
      rw [Cursor.rest_next, h]
      simp [Glyph.chars]
    have hmiddle : (c.next.skip 5).rest = '\\' :: 'u' :: (low.digits ++ ds) := by
      have hlength : ('u' :: high.digits).length = 5 := by simp [high.length]
      rw [← hlength]
      exact Cursor.rest_skip_append hnext
    have hlast : (c.next.skip 5).next.rest = 'u' :: (low.digits ++ ds) := by
      rw [Cursor.rest_next, hmiddle]
      rfl
    have hhigh := escape_number high hnext
    have hlow := escape_number low hlast
    simp only [Json.isHigh, Json.isLow, Bool.and_eq_true, decide_eq_true_eq] at hpair
    rw [if_pos (by omega)] at hhigh hlow
    have hlength : (Glyph.pair high low hpair').chars.length = 12 := by
      simp [Glyph.chars, high.length, low.length]
    rw [hlength] at hrest ⊢
    have hskip : (c.next.skip 5).next.skip 5 = c.skip 12 := by
      rw [← Cursor.skip_succ, ← Cursor.skip_succ, ← Cursor.skip_add]
    rw [hskip] at hlow
    have hread := ((hrest.escape hmiddle hlow).escape h hhigh).mono
      (by omega : least + 1 + 1 ≤ least + 12)
    rwa [prepend_prepend] at hread

/-- What comes of reading some blanks and the characters behind them. -/
def outcome (w : List Char) (gs : List Glyph) (c : Cursor) :
    Except Fault (List Char × Cursor) :=
  if marksFrom w gs then .error .notYaml else .ok (readFrom w gs, c)

theorem outcome_blank {g : Glyph} {gs : List Glyph} (hg : g.blank? = some d) :
    outcome w (g :: gs) c = outcome (w ++ [d]) gs c := by
  rw [outcome, marksFrom, readFrom, hg]
  rfl

theorem outcome_cons {g : Glyph} {gs : List Glyph} (hg : g.blank? = none) :
    outcome w (g :: gs) c =
      if endsLine w && atAnyMarker ((g :: gs).flatMap Glyph.chars ++ ['"']) then .error .notYaml
      else prepend (fold w) (prepend g.read (outcome [] gs c)) := by
  rw [outcome, marksFrom, readFrom, hg, outcome]
  cases endsLine w && atAnyMarker ((g :: gs).flatMap Glyph.chars ++ ['"']) with
  | true => rfl
  | false => cases marksFrom [] gs <;> rfl

theorem atAnyMarker_quote (cs ds : List Char) :
    atAnyMarker (cs ++ '"' :: ds) = atAnyMarker (cs ++ ['"']) :=
  congrArg₂ or (atMarker_append (by decide)) (atMarker_append (by decide))

/-- Blanks and then the rest of a string are read up to its closing mark. -/
theorem reads_glyphs {gs : List Glyph} (h : c.rest = w ++ (gs.flatMap Glyph.chars ++ '"' :: ds))
    (hw : ∀ e ∈ w, isBlank e = true ∧ e ≠ '\r') :
    Reads c (w.length + (gs.flatMap Glyph.chars).length)
      (outcome w gs (c.skip (w.length + (gs.flatMap Glyph.chars).length + 1))) := by
  -- A blank joins those that wait, and any other character is read behind them.
  induction gs generalizing w c with
  | nil =>
    have hmark := Reads.mark (Cursor.rest_skip_append h)
    rw [← Cursor.skip_one, ← Cursor.skip_add] at hmark
    have hread := (Reads.blanks h hw (by decide) hmark).mono (Nat.le_of_eq (Nat.add_comm _ _))
    rw [atAnyMarker_cons (by decide) (by decide), Bool.and_false, prepend_ok, List.append_nil]
      at hread
    exact hread
  | cons g gs ih =>
    rw [List.flatMap_cons, List.append_assoc] at h
    rw [List.flatMap_cons, List.length_append, ← Nat.add_assoc]
    cases hg : g.blank? with
    | some e =>
      obtain ⟨hchars, he⟩ := blank_of_blank? hg
      have hw' : ∀ e' ∈ w ++ [e], isBlank e' = true ∧ e' ≠ '\r' := by
        intro e' he'
        rcases List.mem_append.1 he' with he' | he'
        · exact hw e' he'
        · exact List.mem_singleton.1 he' ▸ he
      rw [hchars] at h ⊢
      have hread := ih (by rw [h, List.append_assoc]) hw'
      rw [List.length_append] at hread
      rw [outcome_blank hg]
      exact hread
    | none =>
      obtain ⟨d, ds', hchars, hd⟩ := exists_chars_eq_cons hg
      have hbehind := Cursor.rest_skip_append h
      have hread := ih (w := []) (Cursor.rest_skip_append hbehind) (List.forall_mem_nil _)
      rw [List.length_nil, Nat.zero_add, ← Cursor.skip_add, ← Cursor.skip_add] at hread
      have hglyph := Reads.glyph hg hbehind (by rwa [← Cursor.skip_add])
      have hmarker : atAnyMarker (d :: (ds' ++ (gs.flatMap Glyph.chars ++ '"' :: ds))) =
          atAnyMarker ((g :: gs).flatMap Glyph.chars ++ ['"']) := by
        rw [List.flatMap_cons, hchars, ← List.cons_append, ← List.append_assoc, atAnyMarker_quote]
      rw [hchars, List.cons_append] at h
      rw [← Nat.add_assoc] at hglyph
      have hall := hglyph.blanks h hw hd
      rw [hmarker, ← outcome_cons hg] at hall
      exact hall.mono (by omega)

/-- A string of JSON is read up to its closing mark, unless the mark of a document starts a line
in it. -/
theorem scan_quoted {gs : List Glyph} (h : c.rest = Json.quoted gs ++ ds) :
    scan true c = outcome [] gs (c.skip (Json.quoted gs).length) := by
  rw [Json.quoted, List.cons_append, List.append_assoc] at h
  have hnext : c.next.rest = [] ++ (gs.flatMap Glyph.chars ++ '"' :: ds) := by
    rw [Cursor.rest_next, h]
    rfl
  have hread := reads_glyphs hnext (List.forall_mem_nil _) (c.rest.length + 1)
    (by rw [h]; simp; omega)
  rw [scan, hread]
  simp [Json.quoted, Cursor.skip_succ]

end ModBuild.Yaml.Quoted
