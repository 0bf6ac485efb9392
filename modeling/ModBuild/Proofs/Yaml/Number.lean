import ModBuild.Proofs.Json.Layout
import ModBuild.Proofs.Text.Split
import ModBuild.Yaml.Scalar

/-!
# JSON numbers as YAML reads them

YAML takes a JSON number for a number if it has no exponent, or has a point and an exponent with
a sign.  Then it reads the number as JSON does.  Any other number is a text to it.
-/

namespace ModBuild

namespace Json

open Document (Key)

/-- Whether YAML takes a number for one. -/
def Number.isPlain (n : Number) : Bool :=
  match n.exponent with
  | none => true
  | some e => n.places.isSome && e.sign != .missing

/-! ## Characters -/

theorem lt_of_isPart {c : Char} (h : isPart c = true) : c.toNat < 128 := by
  simp only [isPart, Bool.or_eq_true, beq_iff_eq] at h
  rcases h with ((h | rfl) | rfl) | rfl
  · rw [isAlphanum_iff] at h
    omega
  all_goals decide

/-- What holds of every character of a number or word for YAML. -/
theorem facts_of_isPart {c : Char} (h : isPart c = true) :
    Yaml.Number.isMargin c = false ∧
      ((ModBuild.Text.digitValue? c).map Nat.digitChar).getD c = c ∧
      isPart c.toLower = true ∧ (c.isDigit = true → c.toLower = c) ∧ c ≠ '_' ∧ c ≠ ':' := by
  have hall : ∀ n < 128, isPart (.ofNat n) = true →
      Yaml.Number.isMargin (.ofNat n) = false ∧
        ((ModBuild.Text.digitValue? (.ofNat n)).map Nat.digitChar).getD (.ofNat n) = .ofNat n ∧
        isPart (Char.ofNat n).toLower = true ∧
        ((Char.ofNat n).isDigit = true → (Char.ofNat n).toLower = .ofNat n) ∧
        Char.ofNat n ≠ '_' ∧ Char.ofNat n ≠ ':' := by
    decide +kernel
  have hc := hall c.toNat (lt_of_isPart h)
  rw [Char.ofNat_toNat] at hc
  exact hc h

variable (n : Number)

theorem Digits.exists_cons (d : Digits) : ∃ c cs, d.chars = c :: cs ∧ c.isDigit = true := by
  obtain ⟨c, cs, h⟩ := List.exists_cons_of_ne_nil d.nonempty
  exact ⟨c, cs, h, List.all_eq_true.1 d.isDigit c (h ▸ List.mem_cons_self)⟩

theorem Digits.mem (d : Digits) : ∀ c ∈ d.chars, c.isDigit = true :=
  List.all_eq_true.1 d.isDigit

/-- Behind its first digits a number goes on with a point or an exponent, if at all. -/
theorem Number.head_rest {c : Char} (h : (n.pointChars ++ n.exponentChars).head? = some c) :
    c = '.' ∨ c = 'e' ∨ c = 'E' := by
  rw [pointChars, exponentChars] at h
  cases hplaces : n.places with
  | some d =>
    rw [hplaces] at h
    exact Or.inl (Option.some.inj h).symm
  | none =>
    rw [hplaces] at h
    cases hexponent : n.exponent with
    | none =>
      rw [hexponent] at h
      cases h
    | some e =>
      rw [hexponent] at h
      rw [← Option.some.inj h]
      cases e.capital
      · exact Or.inr (Or.inl rfl)
      · exact Or.inr (Or.inr rfl)

theorem Number.dropWhile_unsigned :
    n.unsigned.dropWhile Char.isDigit = n.pointChars ++ n.exponentChars := by
  rw [unsigned, List.append_assoc, List.dropWhile_append_of_pos n.whole.mem]
  cases hrest : n.pointChars ++ n.exponentChars with
  | nil => rfl
  | cons c cs =>
    have hc := n.head_rest (c := c) (by rw [hrest]; rfl)
    rw [List.dropWhile_cons_of_neg]
    rcases hc with rfl | rfl | rfl <;> decide

/-! ## Forms -/

theorem dropSign_digit {c : Char} {cs : List Char} (hc : c.isDigit = true) :
    Yaml.dropSign (c :: cs) = c :: cs := by
  unfold Yaml.dropSign
  split
  · next he =>
    obtain ⟨rfl, -⟩ := List.cons.inj he
    cases hc
  · next he =>
    obtain ⟨rfl, -⟩ := List.cons.inj he
    cases hc
  · rfl

theorem Number.dropSign_chars : Yaml.dropSign n.chars = n.unsigned := by
  obtain ⟨c, cs, hunsigned, hc⟩ := n.exists_unsigned
  rw [chars, hunsigned]
  split
  · rfl
  · exact dropSign_digit hc

theorem Digits.isDigitOrGap (d : Digits) : ∀ c ∈ d.chars, Yaml.isDigitOrGap c = true := by
  intro c hc
  rw [Yaml.isDigitOrGap, d.mem c hc, Bool.true_or]

theorem Digits.isCount (d : Digits) : Yaml.isCount d.chars = true := by
  obtain ⟨c, cs, hd, hc⟩ := d.exists_cons
  rw [hd, Yaml.isCount, hc, Bool.true_and, List.all_eq_true]
  exact fun b hb => d.isDigitOrGap b (hd ▸ List.mem_cons_of_mem c hb)

theorem isExponentOrEmpty_cons (e s d : Char) (ds : List Char) :
    Yaml.isExponentOrEmpty (e :: s :: d :: ds) =
      ((e == 'e' || e == 'E') && (s == '+' || s == '-') && (d :: ds).all Char.isDigit) := rfl

theorem Number.isExponentOrEmpty :
    Yaml.isExponentOrEmpty n.exponentChars = n.exponent.all (·.sign != .missing) := by
  rw [exponentChars]
  cases n.exponent with
  | none => rfl
  | some e =>
    obtain ⟨c, cs, hdigits, hc⟩ := e.digits.exists_cons
    have hall : (c :: cs).all Char.isDigit = true := hdigits ▸ e.digits.isDigit
    change Yaml.isExponentOrEmpty (_ :: (e.sign.chars ++ e.digits.chars)) = (e.sign != .missing)
    rw [hdigits]
    cases e.sign with
    | missing =>
      cases cs with
      | nil => rfl
      | cons d ds =>
        have hplus : (c == '+') = false := by rw [beq_eq_false_iff_ne]; rintro rfl; cases hc
        have hminus : (c == '-') = false := by rw [beq_eq_false_iff_ne]; rintro rfl; cases hc
        simp [Sign.chars, isExponentOrEmpty_cons, hplus, hminus]
    | plus | minus =>
      simp only [Sign.chars, List.singleton_append, isExponentOrEmpty_cons, hall]
      cases e.capital <;> rfl

theorem not_isSexagesimal {cs : List Char} (h : ':' ∉ cs) : Yaml.isSexagesimal cs = false := by
  rw [Yaml.isSexagesimal, ModBuild.Text.fields_of_not_mem h]

theorem not_mem_of_isPart {cs : List Char} (h : ∀ c ∈ cs, isPart c = true) : ':' ∉ cs :=
  fun hmem => absurd (h ':' hmem) (by decide)

theorem Number.not_point_mem_exponentChars : '.' ∉ n.exponentChars := by
  intro h
  rw [exponentChars] at h
  cases hexponent : n.exponent with
  | none =>
    rw [hexponent] at h
    cases h
  | some e =>
    rw [hexponent] at h
    rcases List.mem_cons.1 (show '.' ∈ _ :: (e.sign.chars ++ e.digits.chars) from h) with h | h
    · revert h
      cases e.capital <;> decide
    · rcases List.mem_append.1 h with h | h
      · revert h
        cases e.sign <;> decide
      · exact absurd (e.digits.mem _ h) (by decide)

theorem Number.dropWhile_exponentChars {p : Char → Bool} (hp : p 'e' = false ∧ p 'E' = false) :
    n.exponentChars.dropWhile p = n.exponentChars := by
  rw [exponentChars]
  cases n.exponent with
  | none => rfl
  | some e =>
    change List.dropWhile p (_ :: _) = _
    rw [List.dropWhile_cons_of_neg]
    · rfl
    · cases e.capital
      · exact Bool.not_eq_true _ ▸ hp.1
      · exact Bool.not_eq_true _ ▸ hp.2

theorem Number.head?_chars {c : Char} (h : n.chars.head? = some c) : c = '-' ∨ c.isDigit = true := by
  obtain ⟨d, ds, hunsigned, hd⟩ := n.exists_unsigned
  rw [chars, hunsigned] at h
  split at h <;> obtain rfl := Option.some.inj h
  · exact Or.inl rfl
  · exact Or.inr hd

theorem Number.isFloatForm : Yaml.isFloatForm n.chars = (n.places.isSome && n.isPlain) := by
  have hwhole : ∀ c ∈ n.whole.chars, (c != '.') = true := by
    intro c hc
    rw [bne_iff_ne]
    rintro rfl
    exact absurd (n.whole.mem _ hc) (by decide)
  rw [Yaml.isFloatForm, n.dropSign_chars]
  cases hplaces : n.places with
  | none =>
    have hnone : n.unsigned.dropWhile (· != '.') = [] := by
      rw [List.dropWhile_eq_nil_iff]
      intro c hc
      simp only [unsigned, pointChars, hplaces, List.mem_append] at hc
      rcases hc with (hc | hc) | hc
      · exact hwhole c hc
      · cases hc
      · rw [bne_iff_ne]
        rintro rfl
        exact n.not_point_mem_exponentChars hc
    simp only [hnone]
    rfl
  | some d =>
    have hunsigned : n.unsigned = n.whole.chars ++ '.' :: (d.chars ++ n.exponentChars) := by
      simp [unsigned, pointChars, hplaces]
    have htake : n.unsigned.takeWhile (· != '.') = n.whole.chars := by
      rw [hunsigned, List.takeWhile_append_of_pos hwhole]
      simp
    have hdrop : n.unsigned.dropWhile (· != '.') = '.' :: (d.chars ++ n.exponentChars) := by
      rw [hunsigned, List.dropWhile_append_of_pos hwhole]
      simp
    have hexponent : (d.chars ++ n.exponentChars).dropWhile Yaml.isDigitOrGap = n.exponentChars := by
      rw [List.dropWhile_append_of_pos d.isDigitOrGap]
      exact n.dropWhile_exponentChars ⟨rfl, rfl⟩
    have hsixtieth : Yaml.isSexagesimal n.whole.chars = false :=
      not_isSexagesimal (not_mem_of_isPart n.whole.isPart)
    have hnonempty : (n.whole.chars == []) = false := beq_eq_false_iff_ne.2 n.whole.nonempty
    have hhead : (n.chars.head? == some '.') = false := by
      rw [beq_eq_false_iff_ne]
      intro h
      rcases n.head?_chars h with h | h <;> exact absurd h (by decide)
    simp only [hdrop, htake, hexponent, n.whole.isCount, n.isExponentOrEmpty, hsixtieth, hnonempty,
      hhead, Bool.false_and, Bool.or_false, Bool.true_and]
    rw [isPlain, hplaces]
    cases n.exponent <;> rfl

theorem Number.isEmpty_rest :
    (n.pointChars ++ n.exponentChars).isEmpty = (n.places.isNone && n.exponent.isNone) := by
  rw [pointChars, exponentChars]
  cases n.places <;> cases n.exponent <;> rfl

theorem Number.all_rest {p : Char → Bool} (hp : p '.' = false ∧ p 'e' = false ∧ p 'E' = false) :
    (n.pointChars ++ n.exponentChars).all p = (n.pointChars ++ n.exponentChars).isEmpty := by
  cases hrest : n.pointChars ++ n.exponentChars with
  | nil => rfl
  | cons c cs =>
    have hc : p c = false := by
      rcases n.head_rest (c := c) (by rw [hrest]; rfl) with rfl | rfl | rfl
      · exact hp.1
      · exact hp.2.1
      · exact hp.2.2
    rw [List.all_cons, hc]
    rfl

theorem isIntForm_zero {cs : List Char} (h : ∀ c, cs.head? = some c → c = '.' ∨ c = 'e' ∨ c = 'E') :
    Yaml.isIntForm ('0' :: cs) = cs.isEmpty := by
  cases cs with
  | nil => rfl
  | cons c cs => rcases h c rfl with rfl | rfl | rfl <;> rfl

theorem isIntForm_nonzero {c : Char} {cs : List Char} (hdigit : c.isDigit = true) (hc : c ≠ '0') :
    Yaml.isIntForm (c :: cs) = (Yaml.isCount (c :: cs) || Yaml.isSexagesimal (c :: cs)) := by
  rw [Yaml.isIntForm, dropSign_digit hdigit]
  split
  · next he => cases he
  · next he => exact absurd (List.cons.inj he).1 hc
  · next he => exact absurd (List.cons.inj he).1 hc
  · next he => exact absurd (List.cons.inj he).1 hc
  · next he =>
    obtain ⟨rfl, rfl⟩ := List.cons.inj he
    rfl

theorem Number.isIntForm : Yaml.isIntForm n.chars = (n.places.isNone && n.exponent.isNone) := by
  have hsign : Yaml.isIntForm n.chars = Yaml.isIntForm n.unsigned := by
    obtain ⟨c, cs, hunsigned, hc⟩ := n.exists_unsigned
    rw [Yaml.isIntForm, n.dropSign_chars, Yaml.isIntForm, hunsigned, dropSign_digit hc]
  obtain ⟨c, cs, hwhole, hdigit⟩ := n.whole.exists_cons
  rw [hsign, ← n.isEmpty_rest]
  by_cases hc : c = '0'
  · subst hc
    have hunsigned : n.unsigned = '0' :: (n.pointChars ++ n.exponentChars) := by
      rw [unsigned, n.leading (by rw [hwhole]; rfl), List.append_assoc]
      rfl
    rw [hunsigned]
    exact isIntForm_zero fun _ => n.head_rest
  · have hunsigned : n.unsigned = c :: (cs ++ (n.pointChars ++ n.exponentChars)) := by
      rw [unsigned, hwhole, List.append_assoc]
      rfl
    have hsixtieth := not_isSexagesimal (not_mem_of_isPart n.isPart_unsigned)
    rw [hunsigned] at hsixtieth
    have hcount := n.whole.isCount
    rw [hwhole, Yaml.isCount, hdigit, Bool.true_and] at hcount
    rw [hunsigned, isIntForm_nonzero hdigit hc, hsixtieth, Bool.or_false, Yaml.isCount, hdigit,
      Bool.true_and, List.all_append, hcount, Bool.true_and]
    exact n.all_rest ⟨rfl, rfl, rfl⟩

/-- A date starts with digits and a minus. -/
theorem minus_of_number? {year : Nat} {cs ds rest : List Char}
    (hyear : Yaml.Timestamp.number? 4 4 cs = some (year, ds))
    (hmark : Yaml.Timestamp.mark? '-' ds = some rest) :
    cs.takeWhile Char.isDigit ≠ [] ∧ (cs.dropWhile Char.isDigit).head? = some '-' := by
  rw [Yaml.Timestamp.number?] at hyear
  split at hyear
  · next hlength =>
    obtain ⟨-, rfl⟩ := Prod.mk.inj (Option.some.inj hyear)
    rw [List.length_take] at hlength hmark
    have hfour : 4 ≤ (cs.takeWhile Char.isDigit).length := by omega
    rw [Nat.min_eq_left hfour] at hmark
    have hdrop : cs.drop 4 = '-' :: rest := by
      cases htail : cs.drop 4 with
      | nil =>
        rw [htail] at hmark
        cases hmark
      | cons d ds =>
        rw [htail, Yaml.Timestamp.mark?] at hmark
        split at hmark
        · next hd => rw [hd, Option.some.inj hmark]
        · cases hmark
    have hdigits : ∀ c ∈ cs.take 4, c.isDigit = true := by
      intro c hc
      rw [← List.takeWhile_append_dropWhile (p := Char.isDigit) (l := cs),
        List.take_append_of_le_length hfour] at hc
      exact List.mem_takeWhile_imp (List.mem_of_mem_take hc)
    refine ⟨fun hnil => by rw [hnil] at hfour; exact absurd hfour (by decide), ?_⟩
    rw [← List.take_append_drop 4 cs, hdrop, List.dropWhile_append_of_pos hdigits]
    rfl
  · cases hyear

/-- A number is no date, since it has a minus at its start or behind a letter only. -/
theorem Number.isPlainForm : Yaml.Timestamp.isPlainForm n.chars = false := by
  have hmark : ∀ year ds, Yaml.Timestamp.number? 4 4 n.chars = some (year, ds) →
      Yaml.Timestamp.mark? '-' ds = none := by
    intro year ds hyear
    rw [Option.eq_none_iff_forall_ne_some]
    intro rest hmark
    obtain ⟨hdigits, hminus⟩ := minus_of_number? hyear hmark
    rw [chars] at hdigits hminus
    split at hdigits
    · exact hdigits rfl
    · rw [if_neg ‹_›, n.dropWhile_unsigned] at hminus
      rcases n.head_rest hminus with h | h | h <;> exact absurd h (by decide)
  have hparse : Yaml.Timestamp.parse? n.chars = none := by
    rw [Yaml.Timestamp.parse?]
    cases hyear : Yaml.Timestamp.number? 4 4 n.chars with
    | none => rfl
    | some yd =>
      change (Yaml.Timestamp.mark? '-' yd.2 >>= _) = none
      rw [hmark yd.1 yd.2 hyear]
      rfl
  rw [Yaml.Timestamp.isPlainForm, hparse]

/-! ## Tags -/

/-- A number is none of the words that mean something to YAML. -/
theorem Number.ne_word {word : String}
    (h : word.toList.head?.all (fun c => c != '-' && !c.isDigit) = true) :
    String.ofList n.chars ≠ word := by
  rintro rfl
  obtain ⟨c, cs, hchars, -⟩ := n.startsWord
  rw [String.toList_ofList, hchars] at h
  rcases n.head?_chars (c := c) (by rw [hchars]; rfl) with rfl | hc
  · cases h
  · simp [hc] at h

theorem Number.not_mem_words {words : List String}
    (h : words.all (fun word => word.toList.head?.all fun c => c != '-' && !c.isDigit) = true) :
    String.ofList n.chars ∉ words :=
  fun hmem => n.ne_word (List.all_eq_true.1 h _ hmem) rfl

theorem Number.dropFinalBreak_chars : Yaml.dropFinalBreak n.chars = n.chars := by
  rw [Yaml.dropFinalBreak, if_neg]
  intro hlast
  exact absurd (n.isPart _ (List.mem_of_getLast? hlast)) (by decide)

/-- The tag of a number is that of its form. -/
theorem Number.ofPlain :
    Yaml.Tag.ofPlain (.ofList n.chars) =
      if n.isPlain then (if n.places.isSome then .float else .int) else .str := by
  have hnull : ¬ (String.ofList n.chars = "" ∨ String.ofList n.chars ∈ Yaml.nullWords) :=
    not_or.2 ⟨n.ne_word (by decide +kernel), n.not_mem_words (by decide +kernel)⟩
  have hbool : String.ofList n.chars ∉ Yaml.boolWords := n.not_mem_words (by decide +kernel)
  have hmerge : String.ofList n.chars ≠ "<<" := n.ne_word (by decide +kernel)
  have hvalue : String.ofList n.chars ≠ "=" := n.ne_word (by decide +kernel)
  have hmark : String.ofList n.chars ∉ Yaml.markWords := n.not_mem_words (by decide +kernel)
  rw [Yaml.Tag.ofPlain]
  simp only [String.toList_ofList, n.dropFinalBreak_chars]
  rw [if_neg hnull, if_neg hbool, n.isFloatForm, n.isIntForm, n.isPlainForm, if_neg hmerge,
    if_neg hvalue, if_neg hmark, isPlain]
  cases n.places <;> cases n.exponent <;> simp

/-! ## Values -/

open Yaml.Number (dropGaps plain signed whole)

theorem dropGaps_eq {cs : List Char} (h : ∀ c ∈ cs, isPart c = true) : dropGaps cs = cs := by
  rw [dropGaps, List.filter_eq_self]
  exact fun c hc => decide_eq_true (facts_of_isPart (h c hc)).2.2.2.2.1

theorem plain_eq {cs : List Char} (h : ∀ c ∈ cs, isPart c = true) : plain cs = cs := by
  have hmargin : ∀ {ds : List Char}, (∀ c ∈ ds, isPart c = true) →
      ds.dropWhile Yaml.Number.isMargin = ds := by
    intro ds hds
    cases ds with
    | nil => rfl
    | cons d ds =>
      rw [List.dropWhile_cons_of_neg]
      rw [(facts_of_isPart (hds d List.mem_cons_self)).1]
      exact Bool.false_ne_true
  rw [plain, hmargin h, hmargin fun c hc => h c (List.mem_reverse.1 hc), List.reverse_reverse]
  exact List.map_congr_left (fun c hc => (facts_of_isPart (h c hc)).2.1) |>.trans (List.map_id cs)

theorem signed_digit {c : Char} {cs : List Char} (hc : c.isDigit = true) :
    signed (c :: cs) = (false, c :: cs) := by
  unfold signed
  split
  · next he =>
    obtain ⟨rfl, -⟩ := List.cons.inj he
    cases hc
  · next he =>
    obtain ⟨rfl, -⟩ := List.cons.inj he
    cases hc
  · rfl

theorem digitsValue?_eq {cs : List Char} (h : ∀ c ∈ cs, c.isDigit = true) (before : Nat) :
    Yaml.Number.digitsValue? 10 before cs = some (ModBuild.Text.digitsValue before cs) := by
  induction cs generalizing before with
  | nil => rfl
  | cons c cs ih =>
    have hc := h c List.mem_cons_self
    have hlt : c.toNat - 48 < 10 := by
      simp only [Char.isDigit, Bool.and_eq_true, decide_eq_true_eq] at hc
      have hle : c.toNat ≤ 57 := hc.2
      omega
    rw [Yaml.Number.digitsValue?, Yaml.Number.digitValue?, if_pos hc, ModBuild.Text.digitsValue,
      ModBuild.Text.digitValue?_of_isDigit hc]
    simp only [if_pos hlt]
    exact ih (fun d hd => h d (List.mem_cons_of_mem c hd)) _

theorem whole_digits (d : Digits) : whole 10 d.chars = .ok d.value := by
  obtain ⟨c, cs, hd, hc⟩ := d.exists_cons
  have hmark : Yaml.Number.dropBaseMark 10 (c :: cs) = c :: cs := by
    unfold Yaml.Number.dropBaseMark
    split
    · next l ds he =>
      have hletter : Yaml.Number.baseLetter? 10 ≠ some l.toLower := nofun
      rw [if_neg hletter, he]
    · rfl
  rw [whole, plain_eq d.isPart, hd, signed_digit hc]
  simp only [hmark]
  rw [digitsValue?_eq (hd ▸ d.mem), ← hd]
  rfl

theorem unsignedInt_nonzero {c : Char} {cs : List Char} (hc : c ≠ '0') (hcolon : ':' ∉ c :: cs) :
    Yaml.Number.unsignedInt (c :: cs) = whole 10 (c :: cs) := by
  unfold Yaml.Number.unsignedInt
  split
  · next he => cases he
  · next he => exact absurd (List.cons.inj he).1 hc
  · next he => exact absurd (List.cons.inj he).1 hc
  · next he => exact absurd (List.cons.inj he).1 hc
  · next he => exact absurd (List.cons.inj he).1 hc
  · exact if_neg hcolon

theorem Number.unsignedInt_whole : Yaml.Number.unsignedInt n.whole.chars = .ok n.whole.value := by
  obtain ⟨c, cs, hwhole, -⟩ := n.whole.exists_cons
  by_cases hc : c = '0'
  · have hzero := n.leading (by rw [hwhole, hc]; rfl)
    rw [Digits.value, hzero]
    rfl
  · have hcolon := not_mem_of_isPart n.whole.isPart
    rw [hwhole] at hcolon
    rw [← whole_digits, hwhole]
    exact unsignedInt_nonzero hc hcolon

/-- The value of a number that YAML takes for a whole one. -/
theorem Number.intOf (hplaces : n.places = none) (hexponent : n.exponent = none) :
    Yaml.Number.intOf (.ofList n.chars) =
      .ok (if n.negative then -n.whole.value else n.whole.value) := by
  have hunsigned : n.unsigned = n.whole.chars := by
    simp [unsigned, pointChars, exponentChars, hplaces, hexponent]
  obtain ⟨c, cs, hwhole, hc⟩ := n.whole.exists_cons
  have hvalue := n.unsignedInt_whole
  rw [Yaml.Number.intOf, String.toList_ofList, dropGaps_eq n.isPart, chars, hunsigned]
  cases n.negative with
  | true =>
    change (Yaml.Number.unsignedInt n.whole.chars).map _ = _
    rw [hvalue]
    rfl
  | false =>
    rw [hwhole] at hvalue ⊢
    simp only [Bool.false_eq_true, if_false]
    rw [signed_digit hc, hvalue]
    rfl

/-! ## Floating-point numbers -/

/-- The exponent of a number in small letters. -/
def Number.lowerExponent : List Char :=
  (n.exponent.map fun e => 'e' :: (e.sign.chars ++ e.digits.chars)).getD []

/-- A number without its sign in small letters. -/
def Number.lower : List Char :=
  n.whole.chars ++ n.pointChars ++ n.lowerExponent

theorem Digits.map_toLower (d : Digits) : d.chars.map Char.toLower = d.chars :=
  (List.map_congr_left fun c hc => (facts_of_isPart (d.isPart c hc)).2.2.2.1 (d.mem c hc)).trans
    (List.map_id d.chars)

theorem Number.map_toLower_unsigned : n.unsigned.map Char.toLower = n.lower := by
  have hpoint : n.pointChars.map Char.toLower = n.pointChars := by
    rw [pointChars]
    cases n.places with
    | none => rfl
    | some d => exact congrArg _ d.map_toLower
  have hexponent : n.exponentChars.map Char.toLower = n.lowerExponent := by
    rw [exponentChars, lowerExponent]
    cases n.exponent with
    | none => rfl
    | some e =>
      have hletter : (if e.capital then 'E' else 'e').toLower = 'e' := by
        cases e.capital <;> rfl
      have hsign : e.sign.chars.map Char.toLower = e.sign.chars := by
        cases e.sign <;> rfl
      change (e.chars.map Char.toLower) = 'e' :: (e.sign.chars ++ e.digits.chars)
      rw [Exponent.chars, List.map_cons, List.map_append, hletter, hsign, e.digits.map_toLower]
  rw [unsigned, lower, List.map_append, List.map_append, n.whole.map_toLower, hpoint, hexponent]

theorem Number.isPart_lower : ∀ c ∈ n.lower, Json.isPart c = true := by
  intro c hc
  rw [← n.map_toLower_unsigned] at hc
  obtain ⟨b, hb, rfl⟩ := List.mem_map.1 hc
  exact (facts_of_isPart (n.isPart_unsigned b hb)).2.2.1

theorem Number.exponent?_lowerExponent :
    Yaml.Number.exponent? n.lowerExponent = some ((n.exponent.map Exponent.value).getD 0) := by
  rw [lowerExponent]
  cases n.exponent with
  | none => rfl
  | some e =>
    obtain ⟨c, cs, hdigits, hc⟩ := e.digits.exists_cons
    have hvalue := digitsValue?_eq e.digits.mem 0
    have hsigned : signed (e.sign.chars ++ c :: cs) = (e.sign == .minus, c :: cs) := by
      cases e.sign with
      | missing => exact signed_digit hc
      | plus | minus => rfl
    change Yaml.Number.exponent? ('e' :: (e.sign.chars ++ e.digits.chars)) = some e.value
    rw [Yaml.Number.exponent?, if_pos rfl, Exponent.value, Digits.value]
    rw [hdigits] at hvalue ⊢
    rw [hsigned]
    simp only [hvalue]
    cases e.sign <;> rfl

theorem Number.dropWhile_lowerExponent {p : Char → Bool} (hp : p 'e' = false) :
    n.lowerExponent.takeWhile p = [] ∧ n.lowerExponent.dropWhile p = n.lowerExponent := by
  rw [lowerExponent]
  cases n.exponent with
  | none => exact ⟨rfl, rfl⟩
  | some e => 
    change (List.takeWhile p ('e' :: _) = _ ∧ List.dropWhile p ('e' :: _) = _)
    simp [hp]

theorem Number.decimal_lower {d : Digits} (hplaces : n.places = some d) :
    Yaml.Number.decimal n.lower =
      (n.whole.chars ++ d.chars, -(d.chars.length : Int), n.lowerExponent) := by
  have hlower : n.lower = n.whole.chars ++ '.' :: (d.chars ++ n.lowerExponent) := by
    simp [lower, pointChars, hplaces]
  obtain ⟨htake, hdrop⟩ := n.dropWhile_lowerExponent (p := Char.isDigit) rfl
  rw [Yaml.Number.decimal, hlower, List.takeWhile_append_of_pos n.whole.mem,
    List.dropWhile_append_of_pos n.whole.mem]
  simp [List.takeWhile_append_of_pos d.mem, List.dropWhile_append_of_pos d.mem, htake, hdrop]

theorem Number.exists_lower : ∃ c cs, n.lower = c :: cs ∧ c.isDigit = true := by
  obtain ⟨c, cs, hwhole, hc⟩ := n.whole.exists_cons
  exact ⟨c, cs ++ n.pointChars ++ n.lowerExponent, by rw [lower, hwhole]; rfl, hc⟩

theorem Number.unsignedFloat_lower {d : Digits} (hplaces : n.places = some d) :
    Yaml.Number.unsignedFloat n.lower =
      .ok (Document.Binary64.ofDecimal (ModBuild.Text.digitsValue 0 (n.whole.chars ++ d.chars))
        (-d.chars.length + (n.exponent.map Exponent.value).getD 0)) := by
  obtain ⟨c, cs, hlower, hc⟩ := n.exists_lower
  have hword : ∀ word : String, word.toList.head?.all (fun c => !c.isDigit) = true →
      n.lower ≠ word.toList := by
    intro word hword h
    rw [← h, hlower] at hword
    simp [hc] at hword
  have hmagnitude : Yaml.Number.magnitude? n.lower =
      some (Document.Binary64.ofDecimal (ModBuild.Text.digitsValue 0 (n.whole.chars ++ d.chars))
        (-d.chars.length + (n.exponent.map Exponent.value).getD 0)) := by
    rw [Yaml.Number.magnitude?, if_neg, if_neg (hword "nan" (by decide +kernel)),
      n.decimal_lower hplaces]
    · simp [n.whole.nonempty, n.exponent?_lowerExponent]
    · exact not_or.2 ⟨hword "inf" (by decide +kernel), hword "infinity" (by decide +kernel)⟩
  rw [Yaml.Number.unsignedFloat, if_neg (hword ".inf" (by decide +kernel)),
    if_neg (hword ".nan" (by decide +kernel)), if_neg (not_mem_of_isPart n.isPart_lower),
    Yaml.Number.real, plain_eq n.isPart_lower, hlower, signed_digit hc, ← hlower]
  simp only [hmagnitude]
  rfl

/-- The value of a number that YAML takes for one with a point. -/
theorem Number.floatOf {d : Digits} (hplaces : n.places = some d) :
    Yaml.Number.floatOf (.ofList n.chars) = .ok n.float := by
  have hvalue := n.unsignedFloat_lower hplaces
  have hfloat : n.float =
      let x := Document.Binary64.ofDecimal
        (ModBuild.Text.digitsValue 0 (n.whole.chars ++ d.chars))
        (-d.chars.length + (n.exponent.map Exponent.value).getD 0)
      if n.negative then -x else x := by
    rw [float, hplaces]
    rfl
  rw [Yaml.Number.floatOf, String.toList_ofList, dropGaps_eq n.isPart, chars, hfloat]
  cases n.negative with
  | true =>
    change (Yaml.Number.unsignedFloat (n.unsigned.map Char.toLower)).map _ = _
    rw [n.map_toLower_unsigned, hvalue]
    rfl
  | false =>
    obtain ⟨c, cs, hlower, hc⟩ := n.exists_lower
    simp only [Bool.false_eq_true, if_false]
    rw [n.map_toLower_unsigned]
    rw [hlower] at hvalue ⊢
    simp only [signed_digit hc, hvalue]
    rfl

/-! ## Scalars -/

/-- How YAML reads the strings and numbers of JSON. -/
def Reading.yaml : Reading :=
  ⟨readString, fun n => if n.isPlain then n.key else .text (.ofList n.chars)⟩

theorem Reading.number_yaml :
    Reading.yaml.number n = if n.isPlain then n.key else .text (.ofList n.chars) := rfl

theorem Number.readScalar :
    Yaml.readScalar (.ofPlain (.ofList n.chars)) (.ofList n.chars) = .ok (Reading.yaml.number n) := by
  rw [n.ofPlain, Reading.number_yaml]
  cases hplain : n.isPlain with
  | false => simp [Yaml.readScalar]
  | true =>
    cases hplaces : n.places with
    | some d =>
      simp only [if_true, Option.isSome_some]
      rw [Yaml.readScalar, n.floatOf hplaces, key, hplaces]
      rfl
    | none =>
      have hexponent : n.exponent = none := by
        rw [isPlain, hplaces] at hplain
        cases hexponent : n.exponent with
        | none => rfl
        | some e =>
          rw [hexponent] at hplain
          cases hplain
      simp only [if_true, Option.isSome_none, Bool.false_eq_true, if_false]
      rw [Yaml.readScalar, n.intOf hplaces hexponent, key, hplaces, hexponent]
      rfl

end Json

end ModBuild
