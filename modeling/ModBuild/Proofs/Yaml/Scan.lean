import ModBuild.Proofs.Yaml.Lexeme

/-!
# Reading the tokens of a JSON text

Lexeme by lexeme, a JSON text is read as the tokens of its lexemes.  It is read to its end unless
it holds a tab outside of its strings, or the mark of a document at the start of a line in one.
Then the reader stops there.
-/

namespace ModBuild.Yaml.Reader

open Json (Gap Lexeme Meaning Piece Reading)

variable {r r' : Reader} {n n' : Nat} {ts : List Token} {w w' cs : List Char}

/-! ## Steps -/

/-- A reader takes some number of steps to another, none of them behind the end of the text. -/
inductive Reaches : Nat → Reader → Reader → Prop
  | refl (r : Reader) : Reaches 0 r r
  | step {n : Nat} {r r' r'' : Reader} : .streamEnd ∉ r.tokens → r.step = .ok r' →
      Reaches n r' r'' → Reaches (n + 1) r r''

theorem Reaches.trans {m : Nat} {r'' : Reader} (h : Reaches m r r') (h' : Reaches n r' r'') :
    Reaches (m + n) r r'' := by
  induction h with
  | refl => rwa [Nat.zero_add]
  | step hopen hstep _ ih =>
    rw [Nat.add_right_comm]
    exact .step hopen hstep (ih h')

theorem finish_of_step (hopen : .streamEnd ∉ r.tokens) (fuel : Nat) :
    r.finish (fuel + 1) = match r.step with
      | .ok r => r.finish fuel
      | .error .notYaml => .error .notYaml
      | .error (.scalar fault) => .ok ⟨r.tokens.reverse.take r.settled, some fault⟩ := by
  rw [finish]
  split
  · next hts =>
    rw [hts] at hopen
    exact absurd List.mem_cons_self hopen
  · rfl

theorem Reaches.finish_eq (h : Reaches n r r') (fuel : Nat) :
    r.finish (n + fuel) = r'.finish fuel := by
  induction h with
  | refl => rw [Nat.zero_add]
  | step hopen hstep _ ih =>
    rw [Nat.add_right_comm, finish_of_step hopen, hstep]
    exact ih

/-! ## Going on

A reader goes on over a text of so many characters if it takes no more steps than that, either
to a reader behind the text, or to one that finds no token. -/

/-- How reading goes on: to a reader with some property unless it halts, and then to one that
finds no token. -/
inductive Goes (r : Reader) (length : Nat) (halts : Bool) (after : Reader → Prop) : Prop
  | on (r' : Reader) (n : Nat) : halts = false → n ≤ length → Reaches n r r' → after r' →
      Goes r length halts after
  | stops (r' : Reader) (n : Nat) : halts = true → n ≤ length → Reaches n r r' →
      .streamEnd ∉ r'.tokens → r'.step = .error .notYaml → Goes r length halts after

theorem Goes.then {l l' : Nat} {b b' : Bool} {after after' : Reader → Prop}
    (h : Goes r l b after) (h' : ∀ r', after r' → Goes r' l' b' after') :
    Goes r (l + l') (b || b') after' := by
  cases h with
  | stops r₁ n hhalts hn hreach hopen hstep =>
    exact .stops r₁ n (by rw [hhalts, Bool.true_or]) (by omega) hreach hopen hstep
  | on r₁ n hhalts hn hreach hafter =>
    cases h' r₁ hafter with
    | on r₂ m hhalts' hm hreach' hafter' =>
      exact .on r₂ (n + m) (by rw [hhalts, hhalts']; rfl) (by omega) (hreach.trans hreach') hafter'
    | stops r₂ m hhalts' hm hreach' hopen hstep =>
      exact .stops r₂ (n + m) (by rw [hhalts', Bool.or_true]) (by omega) (hreach.trans hreach') hopen
        hstep

theorem Goes.mono {l l' : Nat} {b : Bool} {after : Reader → Prop} (h : Goes r l b after)
    (hle : l ≤ l') : Goes r l' b after := by
  cases h with
  | on r₁ n hhalts hn hreach hafter => exact .on r₁ n hhalts (hn.trans hle) hreach hafter
  | stops r₁ n hhalts hn hreach hopen hstep =>
    exact .stops r₁ n hhalts (hn.trans hle) hreach hopen hstep

theorem Goes.step {after : Reader → Prop} {length : Nat} (hopen : .streamEnd ∉ r.tokens)
    (hstep : r.step = .ok r') (hlength : length ≠ 0) (hafter : after r') :
    Goes r length false after :=
  .on r' 1 rfl (Nat.one_le_iff_ne_zero.2 hlength) (.step hopen hstep (.refl r')) hafter

/-! ## Lexemes -/

/-- Where a lexeme can be read: how deep in brackets the reader is before and behind it, and what
it takes that the lexeme ends where it does. -/
inductive Allows (r : Reader) (cs : List Char) : Lexeme → Nat → Nat → Prop
  | openArray (n : Nat) : Allows r cs .openArray n (n + 1)
  | closeArray (n : Nat) : Allows r cs .closeArray (n + 1) n
  | openObject (n : Nat) : Allows r cs .openObject n (n + 1)
  | closeObject (n : Nat) : Allows r cs .closeObject (n + 1) n
  | comma (n : Nat) : Allows r cs .comma n n
  | scalar (s : Json.Scalar) (n : Nat) :
      Plain.Stops (decide (n ≠ 0)) (cs.dropWhile isLayout) → Allows r cs (.scalar s) n n
  | name (gs : List Json.Glyph) (gap : Gap) (n : Nat) :
      r.allowKey = true → Allows r cs (.name gs gap) (n + 1) (n + 1)

/-- Whether a name can come behind a lexeme. -/
def opensName : Lexeme → Bool
  | .openObject | .comma => true
  | _ => false

theorem Stands.lexeme {g : List Char} {l : Lexeme} (h : r.Stands n ts (g ++ (l.unified ++ cs)))
    (hg : ∀ e ∈ g, isLayout e) (hopen : .streamEnd ∉ ts)
    (hmarks : Json.marksFrom [] l.glyphs = false) (hallows : r.Allows cs l n n') :
    r.Goes l.unified.length l.hasTab fun r' =>
      r'.Stands n' (l.tokens.reverse ++ ts) cs ∧ (opensName l = true → r'.allowKey = true) := by
  have htokens : .streamEnd ∉ r.tokens := h.tokens.symm ▸ hopen
  have hpos := l.length_unified_pos.ne'
  have hno : ∀ {P : Prop}, false = true → P := fun h => absurd h Bool.false_ne_true
  cases hallows with
  | openArray n =>
    obtain ⟨r', hstep, hstands⟩ := h.openArray hg
    exact .step htokens hstep hpos ⟨hstands, hno⟩
  | closeArray n =>
    obtain ⟨r', hstep, hstands⟩ := h.closeArray hg
    exact .step htokens hstep hpos ⟨hstands, hno⟩
  | openObject n =>
    obtain ⟨r', hstep, hstands, hallow⟩ := h.openObject hg
    exact .step htokens hstep hpos ⟨hstands, fun _ => hallow⟩
  | closeObject n =>
    obtain ⟨r', hstep, hstands⟩ := h.closeObject hg
    exact .step htokens hstep hpos ⟨hstands, hno⟩
  | comma n =>
    obtain ⟨r', hstep, hstands, hallow⟩ := h.comma hg
    exact .step htokens hstep hpos ⟨hstands, fun _ => hallow⟩
  | scalar s n hstops =>
    obtain ⟨r', hstep, hstands⟩ := h.scalar hg hmarks hstops
    exact .step htokens hstep hpos ⟨hstands, hno⟩
  | name gs gap n hallow =>
    obtain ⟨r', hstep, hafter⟩ := h.afterName (Nat.succ_ne_zero n) hg hmarks hallow
    have hlength : 2 ≤ (Lexeme.name gs gap).unified.length := by
      simp [Lexeme.unified, Json.quoted]
      omega
    have hopen' : .streamEnd ∉ r'.tokens := by
      rw [hafter.stands.tokens]
      simpa using hopen
    cases htab : gap.chars.contains '\t' with
    | false =>
      obtain ⟨r'', hstep', hstands⟩ := hafter.colon (Nat.succ_ne_zero n) htab
      exact .on r'' 2 htab hlength (.step htokens hstep (.step hopen' hstep' (.refl r'')))
        ⟨hstands, hno⟩
    | true =>
      obtain ⟨w, w', hgap, hw⟩ := Json.Gap.exists_tab htab
      have hstands := hafter.stands
      rw [hgap, List.append_assoc, List.cons_append] at hstands
      exact .stops r' 1 htab (Nat.le_of_lt hlength) (.step htokens hstep (.refl r')) hopen'
        (hstands.tab hw)

/-- A piece is read as the tokens of its lexeme. -/
theorem Stands.piece {p : Piece} (h : r.Stands n ts (p.unified ++ cs)) (hopen : .streamEnd ∉ ts)
    (hallows : r.Allows cs p.lexeme n n') :
    r.Goes p.unified.length p.halts fun r' =>
      r'.Stands n' (p.tokens.reverse ++ ts) cs ∧
        (opensName p.lexeme = true → r'.allowKey = true) := by
  have hopen' : .streamEnd ∉ r.tokens := h.tokens.symm ▸ hopen
  rw [Piece.unified, List.append_assoc] at h
  rw [Piece.halts, Lexeme.halts, Piece.unified, List.length_append]
  cases htab : p.gap.chars.contains '\t' with
  | true =>
    obtain ⟨w, w', hgap, hw⟩ := Json.Gap.exists_tab htab
    rw [hgap, List.append_assoc, List.cons_append] at h
    exact .stops r 0 (Bool.true_or _) (Nat.zero_le _) (.refl r) hopen' (h.tab hw)
  | false =>
    have hgap := Gap.isLayout_unified htab
    rw [Bool.false_or]
    cases hmarks : Json.marksFrom [] p.lexeme.glyphs with
    | true =>
      exact .stops r 0 (Bool.true_or _) (Nat.zero_le _) (.refl r) hopen'
        (h.lexeme_marked hgap hmarks)
    | false => exact (h.lexeme hgap hopen hmarks hallows).mono (Nat.le_add_left _ _)

/-! ## Sequences of pieces -/

theorem streamEnd_not_mem_tokens (p : Piece) : .streamEnd ∉ p.tokens := by
  cases hlexeme : p.lexeme with
  | scalar s => cases s <;> simp [Piece.tokens, Lexeme.tokens, Json.Scalar.token, hlexeme]
  | name gs gap =>
    rw [Piece.tokens, hlexeme, Lexeme.tokens]
    split <;> simp
  | _ => simp [Piece.tokens, Lexeme.tokens, hlexeme]

theorem streamEnd_not_mem (ps : List Piece) (hopen : .streamEnd ∉ ts) :
    .streamEnd ∉ (ps.flatMap Piece.tokens).reverse ++ ts := by
  rw [List.mem_append, List.mem_reverse, List.mem_flatMap]
  rintro (⟨p, -, hp⟩ | hts)
  · exact streamEnd_not_mem_tokens p hp
  · exact hopen hts

/-- Pieces are read as the tokens of their lexemes, up to some depth and the text behind. -/
def ReadsPieces (r : Reader) (ts : List Token) (ps : List Piece) (n : Nat) (cs : List Char) :
    Prop :=
  r.Goes (ps.flatMap Piece.unified).length (ps.any Piece.halts) fun r' =>
    r'.Stands n ((ps.flatMap Piece.tokens).reverse ++ ts) cs

theorem Stands.readsNil (h : r.Stands n ts cs) : r.ReadsPieces ts [] n cs :=
  .on r 0 rfl (Nat.le_refl 0) (.refl r) h

theorem Stands.readsCons {p : Piece} {ps : List Piece} {n'' : Nat}
    (h : r.Stands n ts ((p :: ps).flatMap Piece.unified ++ cs)) (hopen : .streamEnd ∉ ts)
    (hallows : r.Allows (ps.flatMap Piece.unified ++ cs) p.lexeme n n')
    (hps : ∀ r' : Reader, r'.Stands n' (p.tokens.reverse ++ ts) (ps.flatMap Piece.unified ++ cs) →
      .streamEnd ∉ p.tokens.reverse ++ ts → (opensName p.lexeme = true → r'.allowKey = true) →
        r'.ReadsPieces (p.tokens.reverse ++ ts) ps n'' cs) :
    r.ReadsPieces ts (p :: ps) n'' cs := by
  rw [List.flatMap_cons, List.append_assoc] at h
  have hopen' : .streamEnd ∉ p.tokens.reverse ++ ts := by
    simpa using streamEnd_not_mem [p] hopen
  have hgoes := (h.piece hopen hallows).then fun r' h' => hps r' h'.1 hopen' h'.2
  simpa [ReadsPieces] using hgoes

theorem ReadsPieces.append {ps qs : List Piece}
    (h : r.ReadsPieces ts ps n (qs.flatMap Piece.unified ++ cs)) (hopen : .streamEnd ∉ ts)
    (hqs : ∀ (r' : Reader) (us : List Token), r'.Stands n us (qs.flatMap Piece.unified ++ cs) →
      .streamEnd ∉ us → r'.ReadsPieces us qs n' cs) :
    r.ReadsPieces ts (ps ++ qs) n' cs := by
  have hgoes := Goes.then h fun r' h' => hqs r' _ h' (streamEnd_not_mem ps hopen)
  simpa [ReadsPieces] using hgoes

/-- What the text behind a sequence of pieces must be. -/
def Follows (cs : List Char) (n : Nat) : Meaning → Prop
  | .value _ => Plain.Stops (decide (n ≠ 0)) (cs.dropWhile isLayout)
  | _ => True

/-- How deep in brackets a sequence of pieces starts that ends at some depth. -/
def depthBefore (n : Nat) : Meaning → Nat
  | .value _ => n
  | _ => n + 1

/-- White space before a place where a word stops is no part of the word. -/
theorem stops_gap {flow : Bool} (g : Gap) (h : Plain.Stops flow cs) :
    Plain.Stops flow ((g.unified ++ cs).dropWhile isLayout) := by
  cases htab : g.chars.contains '\t' with
  | false =>
    rw [List.dropWhile_append_of_pos (Gap.isLayout_unified htab)]
    have hdrop : cs.dropWhile isLayout = cs := by
      cases cs with
      | nil => rfl
      | cons d ds =>
        refine List.dropWhile_cons_of_neg fun hlayout => ?_
        have hd := h.isSpaceOrBreak_head
        simp only [isLayout, Bool.or_eq_true, beq_iff_eq] at hlayout
        rcases hlayout with rfl | rfl <;> cases hd
    rwa [hdrop]
  | true =>
    obtain ⟨w, w', hgap, hw⟩ := Json.Gap.exists_tab htab
    rw [hgap, List.append_assoc, List.dropWhile_append_of_pos hw, List.cons_append,
      List.dropWhile_cons_of_neg (by decide)]
    exact Or.inr ⟨'\t', _, rfl, Or.inl rfl⟩

/-- A value in brackets or braces ends where it does. -/
theorem follows_rest {ρ : Reading} {ps : List Piece} {m : Meaning} (hm : Json.Encodes ρ ps m)
    (hrest : ∀ v, m ≠ .value v) (v : Document.Value) :
    Follows (ps.flatMap Piece.unified ++ cs) (n + 1) (.value v) := by
  cases hm with
  | endArray g | item g | endObject g | member g =>
    rw [List.flatMap_cons, List.append_assoc, Piece.unified, List.append_assoc]
    exact stops_gap g (Or.inr ⟨_, _, rfl, Or.inr ⟨by simp, by decide⟩⟩)
  | _ => exact absurd rfl (hrest _)

/-- Whatever pieces of a JSON text stand for, they are read as the tokens of their lexemes. -/
theorem Stands.pieces {ρ : Reading} {ps : List Piece} {m : Meaning} (hm : Json.Encodes ρ ps m)
    (h : r.Stands (depthBefore n m) ts (ps.flatMap Piece.unified ++ cs)) (hopen : .streamEnd ∉ ts)
    (hcs : Follows cs n m) : r.ReadsPieces ts ps n cs := by
  induction hm generalizing r n ts cs with
  | scalar g s =>
    refine h.readsCons hopen (.scalar s n hcs) fun r₁ h₁ _ _ => ?_
    exact h₁.readsNil
  | emptyArray g g' =>
    refine h.readsCons hopen (.openArray n) fun r₁ h₁ hopen₁ _ => ?_
    refine h₁.readsCons hopen₁ (.closeArray n) fun r₂ h₂ _ _ => ?_
    exact h₂.readsNil
  | @array g ps qs v vs hv hvs ih ih' =>
    refine h.readsCons hopen (.openArray n) fun r₁ h₁ hopen₁ _ => ?_
    rw [List.flatMap_append, List.append_assoc] at h₁
    refine (ih h₁ hopen₁ (follows_rest hvs nofun v)).append hopen₁ fun r₂ us h₂ hopen₂ => ?_
    exact ih' h₂ hopen₂ trivial
  | endArray g =>
    refine h.readsCons hopen (.closeArray n) fun r₁ h₁ _ _ => ?_
    exact h₁.readsNil
  | @item g ps qs v vs hv hvs ih ih' =>
    refine h.readsCons hopen (.comma (n + 1)) fun r₁ h₁ hopen₁ _ => ?_
    rw [List.flatMap_append, List.append_assoc] at h₁
    refine (ih h₁ hopen₁ (follows_rest hvs nofun v)).append hopen₁ fun r₂ us h₂ hopen₂ => ?_
    exact ih' h₂ hopen₂ trivial
  | emptyObject g g' =>
    refine h.readsCons hopen (.openObject n) fun r₁ h₁ hopen₁ _ => ?_
    refine h₁.readsCons hopen₁ (.closeObject n) fun r₂ h₂ _ _ => ?_
    exact h₂.readsNil
  | @object g g' gs k ps qs v es hv hes ih ih' =>
    refine h.readsCons hopen (.openObject n) fun r₁ h₁ hopen₁ hallow => ?_
    refine h₁.readsCons hopen₁ (.name gs k n (hallow rfl)) fun r₂ h₂ hopen₂ _ => ?_
    rw [List.flatMap_append, List.append_assoc] at h₂
    refine (ih h₂ hopen₂ (follows_rest hes nofun v)).append hopen₂ fun r₃ us h₃ hopen₃ => ?_
    exact ih' h₃ hopen₃ trivial
  | endObject g =>
    refine h.readsCons hopen (.closeObject n) fun r₁ h₁ _ _ => ?_
    exact h₁.readsNil
  | @member g g' gs k ps qs v es hv hes ih ih' =>
    refine h.readsCons hopen (.comma (n + 1)) fun r₁ h₁ hopen₁ hallow => ?_
    refine h₁.readsCons hopen₁ (.name gs k n (hallow rfl)) fun r₂ h₂ hopen₂ _ => ?_
    rw [List.flatMap_append, List.append_assoc] at h₂
    refine (ih h₂ hopen₂ (follows_rest hes nofun v)).append hopen₂ fun r₃ us h₃ hopen₃ => ?_
    exact ih' h₃ hopen₃ trivial

/-! ## Texts -/

theorem start_stands (cs : List Char) : (start cs).Stands 0 [] cs :=
  ⟨⟨rfl, List.forall_mem_nil _, rfl⟩, rfl, rfl, rfl⟩

/-- White space at the end of a text is read as the end, unless it holds a tab. -/
theorem Stands.finish_gap {g : Gap} (h : r.Stands n ts g.unified) (hopen : .streamEnd ∉ ts)
    (fuel : Nat) :
    r.finish (fuel + 2) =
      if g.chars.contains '\t' then .error .notYaml
      else .ok ⟨ts.reverse ++ [.streamEnd], none⟩ := by
  have hopen' : .streamEnd ∉ r.tokens := h.tokens.symm ▸ hopen
  rw [finish_of_step hopen']
  cases htab : g.chars.contains '\t' with
  | true =>
    obtain ⟨w, w', hgap, hw⟩ := Json.Gap.exists_tab htab
    rw [hgap] at h
    rw [h.tab hw]
    rfl
  | false =>
    obtain ⟨r', hstep, htokens⟩ := h.end (Gap.isLayout_unified htab)
    simp only [hstep]
    rw [finish, htokens]
    simp

/-- The tokens of a JSON text are those of its lexemes, unless reading halts. -/
theorem finish_start {ρ : Reading} {t : Json.Text} {v : Document.Value}
    (hv : Json.Encodes ρ t.pieces (.value v)) :
    (start t.unified).finish (t.unified.length + 2) =
      if t.halts then .error .notYaml else .ok ⟨t.tokens, none⟩ := by
  have hstops : Follows t.final.unified 0 (.value v) := by
    simpa [Follows] using stops_gap t.final (Or.inl rfl : Plain.Stops false [])
  have hgoes := (start_stands t.unified).pieces hv List.not_mem_nil hstops
  have hlength : (t.pieces.flatMap Piece.unified).length ≤ t.unified.length := by
    rw [Json.Text.unified, List.length_append]
    exact Nat.le_add_right _ _
  rw [Json.Text.halts]
  cases hgoes with
  | on r n hhalts hn hreach hstands =>
    obtain ⟨fuel, hfuel⟩ := Nat.exists_eq_add_of_le (hn.trans hlength)
    have hopen := streamEnd_not_mem t.pieces List.not_mem_nil
    rw [hfuel, Nat.add_assoc, hreach.finish_eq, hstands.finish_gap hopen, hhalts, Bool.false_or]
    simp [Json.Text.tokens]
  | stops r n hhalts hn hreach hopen hstep =>
    obtain ⟨fuel, hfuel⟩ := Nat.exists_eq_add_of_le (hn.trans hlength)
    rw [hfuel, Nat.add_assoc, hreach.finish_eq, finish_of_step hopen, hstep, hhalts,
      Bool.true_or]
    rfl

end ModBuild.Yaml.Reader

namespace ModBuild.Yaml

open Json (Reading)

/-- A JSON text whose characters are readable has the tokens of its lexemes, unless reading
halts. -/
theorem Tokens.ofText_json {ρ : Reading} {t : Json.Text} {v : Document.Value}
    (hv : Json.Encodes ρ t.pieces (.value v)) :
    Tokens.ofText t.unified =
      if t.isReadable && !t.halts then .ok ⟨t.tokens, none⟩ else .error .notYaml := by
  rw [Tokens.ofText, Json.Text.all_isAllowed, Reader.finish_start hv]
  cases t.isReadable <;> cases t.halts <;> rfl

end ModBuild.Yaml
