import ModBuild.Encoding.Utf8

/-!
# UTF-8 is read as it is written

A character is written as one to four octets.  `Written` lists the four forms with the
bounds of every octet, and both the writer (`written_encodeChar`) and the reader
(`decodeFrom_written`, `of_decodeFrom_cons`) keep to them.  So reading undoes writing and
accepts nothing else (`decode_eq_ok_iff`), and what is accepted is UTF-8 as the standard
library has it (`isValidUTF8_iff`).

The first octet of a character is never one that continues a character
(`Written.lead`).  Therefore a text is written at the front of another one only if it
is the front of that text (`encode_prefix_iff`), and no text is written from the middle
of a character on (`not_encode_prefix_tail`).
-/

namespace ModBuild.Encoding.Utf8

/-! ## The forms of a character -/

/-- An octet that continues a character. -/
def IsTail (b : UInt8) : Prop :=
  0x80 ≤ b.toNat ∧ b.toNat ≤ 0xBF

/-- The octets of a character with a number. -/
inductive Written : List UInt8 → Nat → Prop where
  | one {a : UInt8} :
    a.toNat < 0x80 →
    Written [a] a.toNat
  | two {a b : UInt8} :
    0xC2 ≤ a.toNat → a.toNat ≤ 0xDF →
    IsTail b →
    Written [a, b] ((a.toNat - 0xC0) * 64 + (b.toNat - 0x80))
  /-- The second octet is bounded so that no shorter form would do and the character
  is no surrogate. -/
  | three {a b c : UInt8} :
    0xE0 ≤ a.toNat → a.toNat ≤ 0xEF →
    IsTail b → (a.toNat = 0xE0 → 0xA0 ≤ b.toNat) → (a.toNat = 0xED → b.toNat ≤ 0x9F) →
    IsTail c →
    Written [a, b, c] (((a.toNat - 0xE0) * 64 + (b.toNat - 0x80)) * 64 + (c.toNat - 0x80))
  /-- The second octet is bounded so that no shorter form would do and the number is
  not above U+10FFFF. -/
  | four {a b c d : UInt8} :
    0xF0 ≤ a.toNat → a.toNat ≤ 0xF4 →
    IsTail b → (a.toNat = 0xF0 → 0x90 ≤ b.toNat) → (a.toNat = 0xF4 → b.toNat ≤ 0x8F) →
    IsTail c →
    IsTail d →
    Written [a, b, c, d]
      ((((a.toNat - 0xF0) * 64 + (b.toNat - 0x80)) * 64 + (c.toNat - 0x80)) * 64 +
        (d.toNat - 0x80))

namespace Written

variable {os : List UInt8} {n : Nat}

/-- Every form has the number of a character. -/
theorem isValidChar (h : Written os n) : n.isValidChar := by
  cases h with
  | one ha =>
    left
    omega
  | two _ _ hb =>
    obtain ⟨_, _⟩ := hb
    left
    omega
  | @three a b c _ _ hb _ hs hc =>
    obtain ⟨_, _⟩ := hb
    obtain ⟨_, _⟩ := hc
    -- A first octet of 0xED leads to the numbers right below the surrogates.
    rcases Nat.lt_trichotomy a.toNat 0xED with hlt | heq | hgt
    · left
      omega
    · left
      have := hs heq
      omega
    · right
      omega
  | four _ _ hb hl hh hc hd =>
    obtain ⟨_, _⟩ := hb
    obtain ⟨_, _⟩ := hc
    obtain ⟨_, _⟩ := hd
    right
    omega

theorem toNat_ofNat (h : Written os n) : (Char.ofNat n).toNat = n := by
  rw [Char.ofNat, dif_pos h.isValidChar]
  rfl

/-- A first octet that continues no character, and octets that continue this one. -/
theorem lead (h : Written os n) : ∃ b bs, os = b :: bs ∧ ¬ IsTail b ∧ ∀ t ∈ bs, IsTail t := by
  cases h with
  | @one a ha =>
    refine ⟨a, [], rfl, fun ht => ?_, by simp⟩
    have := ht.1
    omega
  | @two a b ha _ hb =>
    refine ⟨a, [b], rfl, fun ht => ?_, by simpa using hb⟩
    have := ht.2
    omega
  | @three a b c ha _ hb _ _ hc =>
    refine ⟨a, [b, c], rfl, fun ht => ?_, by simpa using ⟨hb, hc⟩⟩
    have := ht.2
    omega
  | @four a b c d ha _ hb _ _ hc hd =>
    refine ⟨a, [b, c, d], rfl, fun ht => ?_, by simpa using ⟨hb, hc, hd⟩⟩
    have := ht.2
    omega

end Written

/-! ## The writer -/

theorem toNat_ofNat_of_lt {n : Nat} (h : n < 256) : (UInt8.ofNat n).toNat = n :=
  UInt8.toNat_ofNat_of_lt' h

/-- A character is written in one of the forms. -/
theorem written_encodeChar (c : Char) : Written (encodeChar c) c.toNat := by
  have hc : c.toNat.isValidChar := c.valid
  have hmax : c.toNat < 0x110000 := by
    rcases hc with h | h <;> omega
  have hsurrogate : ¬ (0xD800 ≤ c.toNat ∧ c.toNat ≤ 0xDFFF) := by
    rcases hc with h | h <;> omega
  unfold encodeChar
  dsimp only
  generalize c.toNat = n at hmax hsurrogate
  split
  · have ha : (UInt8.ofNat n).toNat = n := toNat_ofNat_of_lt (by omega)
    simpa [ha] using Written.one (a := .ofNat n) (by omega)
  split
  · have ha : (UInt8.ofNat (0xC0 + n / 64)).toNat = 0xC0 + n / 64 := toNat_ofNat_of_lt (by omega)
    have hb : (UInt8.ofNat (0x80 + n % 64)).toNat = 0x80 + n % 64 := toNat_ofNat_of_lt (by omega)
    have hw := Written.two (a := .ofNat (0xC0 + n / 64)) (b := .ofNat (0x80 + n % 64))
      (by omega) (by omega) ⟨by omega, by omega⟩
    have hn : (0xC0 + n / 64 - 0xC0) * 64 + (0x80 + n % 64 - 0x80) = n := by omega
    rwa [ha, hb, hn] at hw
  split
  · have ha : (UInt8.ofNat (0xE0 + n / 4096)).toNat = 0xE0 + n / 4096 :=
      toNat_ofNat_of_lt (by omega)
    have hb : (UInt8.ofNat (0x80 + n / 64 % 64)).toNat = 0x80 + n / 64 % 64 :=
      toNat_ofNat_of_lt (by omega)
    have hd : (UInt8.ofNat (0x80 + n % 64)).toNat = 0x80 + n % 64 := toNat_ofNat_of_lt (by omega)
    have hw := Written.three (a := .ofNat (0xE0 + n / 4096)) (b := .ofNat (0x80 + n / 64 % 64))
      (c := .ofNat (0x80 + n % 64)) (by omega) (by omega) ⟨by omega, by omega⟩
      (by omega) (by omega) ⟨by omega, by omega⟩
    have hn : ((0xE0 + n / 4096 - 0xE0) * 64 + (0x80 + n / 64 % 64 - 0x80)) * 64 +
        (0x80 + n % 64 - 0x80) = n := by omega
    rwa [ha, hb, hd, hn] at hw
  · have ha : (UInt8.ofNat (0xF0 + n / 262144)).toNat = 0xF0 + n / 262144 :=
      toNat_ofNat_of_lt (by omega)
    have hb : (UInt8.ofNat (0x80 + n / 4096 % 64)).toNat = 0x80 + n / 4096 % 64 :=
      toNat_ofNat_of_lt (by omega)
    have hd : (UInt8.ofNat (0x80 + n / 64 % 64)).toNat = 0x80 + n / 64 % 64 :=
      toNat_ofNat_of_lt (by omega)
    have he : (UInt8.ofNat (0x80 + n % 64)).toNat = 0x80 + n % 64 := toNat_ofNat_of_lt (by omega)
    have hw := Written.four (a := .ofNat (0xF0 + n / 262144)) (b := .ofNat (0x80 + n / 4096 % 64))
      (c := .ofNat (0x80 + n / 64 % 64)) (d := .ofNat (0x80 + n % 64)) (by omega) (by omega)
      ⟨by omega, by omega⟩ (by omega) (by omega) ⟨by omega, by omega⟩ ⟨by omega, by omega⟩
    have hn : (((0xF0 + n / 262144 - 0xF0) * 64 + (0x80 + n / 4096 % 64 - 0x80)) * 64 +
        (0x80 + n / 64 % 64 - 0x80)) * 64 + (0x80 + n % 64 - 0x80) = n := by omega
    rwa [ha, hb, hd, he, hn] at hw

theorem ofNat_eq {n : Nat} {b : UInt8} (h : n = b.toNat) : UInt8.ofNat n = b := by
  rw [h, UInt8.ofNat_toNat]

/-- Every form is how its character is written. -/
theorem Written.encodeChar_ofNat {os : List UInt8} {n : Nat} (h : Written os n) :
    encodeChar (Char.ofNat n) = os := by
  unfold encodeChar
  dsimp only
  have hm := h.toNat_ofNat
  generalize (Char.ofNat n).toNat = m at hm
  cases h with
  | @one a ha =>
    rw [if_pos (by omega), ofNat_eq hm]
  | @two a b ha ha' hb =>
    obtain ⟨hb, hb'⟩ := hb
    have h₁ : 0xC0 + m / 64 = a.toNat := by omega
    have h₂ : 0x80 + m % 64 = b.toNat := by omega
    rw [if_neg (by omega), if_pos (by omega), ofNat_eq h₁, ofNat_eq h₂]
  | @three a b c ha ha' hb hl hs hc =>
    obtain ⟨hb, hb'⟩ := hb
    obtain ⟨hc, hc'⟩ := hc
    have h₁ : 0xE0 + m / 4096 = a.toNat := by omega
    have h₂ : 0x80 + m / 64 % 64 = b.toNat := by omega
    have h₃ : 0x80 + m % 64 = c.toNat := by omega
    rw [if_neg (by omega), if_neg (by omega), if_pos (by omega), ofNat_eq h₁, ofNat_eq h₂,
      ofNat_eq h₃]
  | @four a b c d ha ha' hb hl hh hc hd =>
    obtain ⟨hb, hb'⟩ := hb
    obtain ⟨hc, hc'⟩ := hc
    obtain ⟨hd, hd'⟩ := hd
    have h₁ : 0xF0 + m / 262144 = a.toNat := by omega
    have h₂ : 0x80 + m / 4096 % 64 = b.toNat := by omega
    have h₃ : 0x80 + m / 64 % 64 = c.toNat := by omega
    have h₄ : 0x80 + m % 64 = d.toNat := by omega
    rw [if_neg (by omega), if_neg (by omega), if_neg (by omega), ofNat_eq h₁, ofNat_eq h₂,
      ofNat_eq h₃, ofNat_eq h₄]

/-- The writer of the standard library writes the same octets. -/
theorem encodeChar_eq_utf8EncodeChar (c : Char) : encodeChar c = String.utf8EncodeChar c := by
  have hc : c.toNat.isValidChar := c.valid
  have hmax : c.toNat < 0x110000 := by
    rcases hc with h | h <;> omega
  unfold encodeChar String.utf8EncodeChar
  rw [show c.val.toNat = c.toNat from rfl]
  generalize c.toNat = n at hmax
  dsimp only
  split
  · rw [if_pos (by omega)]
  split
  · rw [if_neg (by omega), if_pos (by omega), show n / 64 % 32 + 192 = 0xC0 + n / 64 by omega,
      Nat.add_comm (n % 64)]
  split
  · rw [if_neg (by omega), if_neg (by omega), if_pos (by omega),
      show n / 4096 % 16 + 224 = 0xE0 + n / 4096 by omega, Nat.add_comm (n / 64 % 64),
      Nat.add_comm (n % 64)]
  · rw [if_neg (by omega), if_neg (by omega), if_neg (by omega),
      show n / 262144 % 8 + 240 = 0xF0 + n / 262144 by omega, Nat.add_comm (n / 4096 % 64),
      Nat.add_comm (n / 64 % 64), Nat.add_comm (n % 64)]

theorem encode_cons (c : Char) (cs : List Char) : encode (c :: cs) = encodeChar c ++ encode cs :=
  List.flatMap_cons

theorem encode_append (cs ds : List Char) : encode (cs ++ ds) = encode cs ++ encode ds :=
  List.flatMap_append

/-! ## The reader -/

section Reader

variable {position : Nat} {p : Begun} {a b : UInt8} {os bs rest : List UInt8} {n : Nat}
variable {cs : List Char}

/-- The begun character after one octet more. -/
def Begun.next (p : Begun) (b : UInt8) (after : Nat) : Begun :=
  { p with count := p.count + 1, after, value := p.value * 64 + (b.toNat - 0x80), low := 0x80,
           high := 0xBF }

theorem decodeFrom_last (hp : p.after = 0) (hb : p.low ≤ b.toNat ∧ b.toNat ≤ p.high) :
    decodeFrom position (some p) (b :: rest) =
      (Char.ofNat (p.value * 64 + (b.toNat - 0x80)) :: ·) <$>
        decodeFrom (position + 1) none rest := by
  rw [decodeFrom, if_pos hb]
  dsimp only
  rw [hp]

theorem decodeFrom_more {k : Nat} (hp : p.after = k + 1)
    (hb : p.low ≤ b.toNat ∧ b.toNat ≤ p.high) :
    decodeFrom position (some p) (b :: rest) =
      decodeFrom (position + 1) (some (p.next b k)) rest := by
  rw [decodeFrom, if_pos hb]
  dsimp only
  rw [hp]
  rfl

/-- The first octet of several, and what it begins. -/
theorem begin?_eq_some_iff :
    begin? position a = some p ↔
      (0xC2 ≤ a.toNat ∧ a.toNat ≤ 0xDF ∧
        p = ⟨position, a, 1, 0, a.toNat - 0xC0, 0x80, 0xBF⟩) ∨
      (0xE0 ≤ a.toNat ∧ a.toNat ≤ 0xEF ∧
        p = ⟨position, a, 1, 1, a.toNat - 0xE0, if a.toNat = 0xE0 then 0xA0 else 0x80,
          if a.toNat = 0xED then 0x9F else 0xBF⟩) ∨
      (0xF0 ≤ a.toNat ∧ a.toNat ≤ 0xF4 ∧
        p = ⟨position, a, 1, 2, a.toNat - 0xF0, if a.toNat = 0xF0 then 0x90 else 0x80,
          if a.toNat = 0xF4 then 0x8F else 0xBF⟩) := by
  constructor
  · intro h
    unfold begin? at h
    dsimp only at h
    split at h
    · next ha => exact Or.inl ⟨ha.1, ha.2, (Option.some.inj h).symm⟩
    split at h
    · next ha => exact Or.inr (Or.inl ⟨ha.1, ha.2, (Option.some.inj h).symm⟩)
    split at h
    · next ha => exact Or.inr (Or.inr ⟨ha.1, ha.2, (Option.some.inj h).symm⟩)
    · cases h
  · intro h
    unfold begin?
    dsimp only
    rcases h with ⟨ha, ha', rfl⟩ | ⟨ha, ha', rfl⟩ | ⟨ha, ha', rfl⟩
    · rw [if_pos ⟨ha, ha'⟩]
    · rw [if_neg (by omega), if_pos ⟨ha, ha'⟩]
    · rw [if_neg (by omega), if_neg (by omega), if_pos ⟨ha, ha'⟩]

/-- A character that is begun is read on. -/
theorem decodeFrom_begun (h : begin? position a = some p) :
    decodeFrom position none (a :: rest) = decodeFrom (position + 1) (some p) rest := by
  have ha : ¬ a.toNat < 0x80 := by
    rcases begin?_eq_some_iff.1 h with ⟨ha, -⟩ | ⟨ha, -⟩ | ⟨ha, -⟩ <;> omega
  rw [decodeFrom, if_neg ha, h]

/-- A written character is read. -/
theorem decodeFrom_written (h : Written os n) :
    decodeFrom position none (os ++ rest) =
      (Char.ofNat n :: ·) <$> decodeFrom (position + os.length) none rest := by
  cases h with
  | one ha => rw [List.singleton_append, decodeFrom, if_pos ha, List.length_singleton]
  | @two a b ha ha' hb =>
    have hbegin : begin? position a = some _ := begin?_eq_some_iff.2 (Or.inl ⟨ha, ha', rfl⟩)
    change decodeFrom position none (a :: b :: rest) = _
    rw [decodeFrom_begun hbegin, decodeFrom_last]
    · rfl
    · rfl
    · exact hb
  | @three a b c ha ha' hb hl hs hc =>
    have hbegin : begin? position a = some _ :=
      begin?_eq_some_iff.2 (Or.inr (Or.inl ⟨ha, ha', rfl⟩))
    change decodeFrom position none (a :: b :: c :: rest) = _
    rw [decodeFrom_begun hbegin, decodeFrom_more, decodeFrom_last]
    · rfl
    · rfl
    · exact hc
    · rfl
    · obtain ⟨hb, hb'⟩ := hb
      constructor <;> dsimp only <;> split <;> omega
  | @four a b c d ha ha' hb hl hh hc hd =>
    have hbegin : begin? position a = some _ :=
      begin?_eq_some_iff.2 (Or.inr (Or.inr ⟨ha, ha', rfl⟩))
    change decodeFrom position none (a :: b :: c :: d :: rest) = _
    rw [decodeFrom_begun hbegin, decodeFrom_more, decodeFrom_more, decodeFrom_last]
    · rfl
    · rfl
    · exact hd
    · rfl
    · exact hc
    · rfl
    · obtain ⟨hb, hb'⟩ := hb
      constructor <;> dsimp only <;> split <;> omega

theorem of_map_eq_ok {ε α β : Type} {f : α → β} {r : Except ε α} {y : β}
    (h : f <$> r = .ok y) : ∃ x, r = .ok x ∧ y = f x := by
  cases r with
  | error e => cases h
  | ok x =>
    cases h
    exact ⟨x, rfl, rfl⟩

/-- What comes behind a character that is begun, if it is text. -/
theorem of_decodeFrom_some (h : decodeFrom position (some p) bs = .ok cs) :
    ∃ b rest, bs = b :: rest ∧ p.low ≤ b.toNat ∧ b.toNat ≤ p.high ∧
      ((p.after = 0 ∧ ∃ ds, cs = Char.ofNat (p.value * 64 + (b.toNat - 0x80)) :: ds ∧
          decodeFrom (position + 1) none rest = .ok ds) ∨
        ∃ k, p.after = k + 1 ∧ decodeFrom (position + 1) (some (p.next b k)) rest = .ok cs) := by
  cases bs with
  | nil => cases h
  | cons b rest =>
    by_cases hb : p.low ≤ b.toNat ∧ b.toNat ≤ p.high
    · refine ⟨b, rest, rfl, hb.1, hb.2, ?_⟩
      cases hp : p.after with
      | zero =>
        rw [decodeFrom_last hp hb] at h
        obtain ⟨ds, hds, rfl⟩ := of_map_eq_ok h
        exact Or.inl ⟨rfl, ds, rfl, hds⟩
      | succ k =>
        rw [decodeFrom_more hp hb] at h
        exact Or.inr ⟨k, rfl, h⟩
    · rw [decodeFrom, if_neg hb] at h
      cases h

/-- Text starts with a written character, unless it is empty. -/
theorem of_decodeFrom_cons (h : decodeFrom position none (a :: bs) = .ok cs) :
    ∃ os n rest ds, Written os n ∧ a :: bs = os ++ rest ∧ cs = Char.ofNat n :: ds ∧
      decodeFrom (position + os.length) none rest = .ok ds := by
  by_cases ha : a.toNat < 0x80
  · rw [decodeFrom, if_pos ha] at h
    obtain ⟨ds, hds, rfl⟩ := of_map_eq_ok h
    exact ⟨[a], _, bs, ds, .one ha, rfl, rfl, hds⟩
  · rw [decodeFrom, if_neg ha] at h
    split at h
    · next p hp =>
      obtain ⟨b, rest, rfl, hl, hh, h⟩ := of_decodeFrom_some h
      rcases begin?_eq_some_iff.1 hp with ⟨ha, ha', rfl⟩ | ⟨ha, ha', rfl⟩ | ⟨ha, ha', rfl⟩
      · rcases h with ⟨-, ds, rfl, hds⟩ | ⟨k, hk, -⟩
        · exact ⟨[a, b], _, rest, ds, .two ha ha' ⟨hl, hh⟩, rfl, rfl, hds⟩
        · cases hk
      · dsimp only at hl hh
        have hb : IsTail b := ⟨by split at hl <;> omega, by split at hh <;> omega⟩
        rcases h with ⟨hk, -⟩ | ⟨k, hk, h⟩
        · cases hk
        cases hk
        obtain ⟨c, rest, rfl, hcl, hch, ⟨-, ds, rfl, hds⟩ | ⟨k, hk, -⟩⟩ := of_decodeFrom_some h
        · refine ⟨[a, b, c], _, rest, ds, .three ha ha' hb ?_ ?_ ⟨hcl, hch⟩, rfl, rfl, hds⟩
          · intro he
            rwa [if_pos he] at hl
          · intro he
            rwa [if_pos he] at hh
        · cases hk
      · dsimp only at hl hh
        have hb : IsTail b := ⟨by split at hl <;> omega, by split at hh <;> omega⟩
        rcases h with ⟨hk, -⟩ | ⟨k, hk, h⟩
        · cases hk
        cases hk
        obtain ⟨c, rest, rfl, hcl, hch, ⟨hk, -⟩ | ⟨k, hk, h⟩⟩ := of_decodeFrom_some h
        · cases hk
        cases hk
        obtain ⟨d, rest, rfl, hdl, hdh, ⟨-, ds, rfl, hds⟩ | ⟨k, hk, -⟩⟩ := of_decodeFrom_some h
        · refine ⟨[a, b, c, d], _, rest, ds, .four ha ha' hb ?_ ?_ ⟨hcl, hch⟩ ⟨hdl, hdh⟩, rfl, rfl,
            hds⟩
          · intro he
            rwa [if_pos he] at hl
          · intro he
            rwa [if_pos he] at hh
        · cases hk
    · cases h

end Reader

/-! ## Reading undoes writing -/

/-- A text is read at the front of other octets. -/
theorem decodeFrom_encode (position : Nat) (cs : List Char) (rest : List UInt8) :
    decodeFrom position none (encode cs ++ rest) =
      (cs ++ ·) <$> decodeFrom (position + (encode cs).length) none rest := by
  induction cs generalizing position with
  | nil =>
    cases hr : decodeFrom position none rest <;> simp [encode, hr]
  | cons c cs ih =>
    rw [encode_cons, List.append_assoc, decodeFrom_written (written_encodeChar c), ih,
      Char.ofNat_toNat, List.length_append, ← Nat.add_assoc, ← comp_map]
    rfl

/-- Octets that are read are how the text is written. -/
theorem encode_of_decodeFrom {position : Nat} {bs : List UInt8} {cs : List Char}
    (h : decodeFrom position none bs = .ok cs) : encode cs = bs := by
  induction hk : bs.length using Nat.strongRecOn generalizing position bs cs with
  | ind k ih =>
    cases bs with
    | nil =>
      cases h
      rfl
    | cons a bs =>
      obtain ⟨os, n, rest, ds, hw, he, rfl, hds⟩ := of_decodeFrom_cons h
      obtain ⟨b, tail, rfl, -⟩ := hw.lead
      have hlength : rest.length < k := by
        rw [← hk, he, List.length_append, List.length_cons]
        omega
      rw [encode_cons, hw.encodeChar_ofNat, ih _ hlength hds rfl, he]

/-- Octets are a text if and only if they are how the text is written. -/
theorem decode_eq_ok_iff {bs : List UInt8} {cs : List Char} :
    decode bs = .ok cs ↔ encode cs = bs := by
  constructor
  · exact encode_of_decodeFrom
  · rintro rfl
    have h := decodeFrom_encode 0 cs []
    rw [List.append_nil] at h
    rw [decode, h, decodeFrom]
    exact congrArg Except.ok (List.append_nil cs)

theorem toByteArray_encode (cs : List Char) : (encode cs).toByteArray = cs.utf8Encode := by
  rw [encode, List.utf8Encode, funext encodeChar_eq_utf8EncodeChar]

/-- Octets are UTF-8 if and only if they are how a text is written. -/
theorem isValidUTF8_iff {bs : List UInt8} :
    bs.toByteArray.IsValidUTF8 ↔ ∃ cs, encode cs = bs := by
  constructor
  · rintro ⟨cs, h⟩
    rw [← toByteArray_encode] at h
    exact ⟨cs, by simpa using (congrArg (fun b => b.data.toList) h).symm⟩
  · rintro ⟨cs, rfl⟩
    exact ⟨cs, toByteArray_encode cs⟩

/-! ## Characters are not cut -/

/-- A text is written at the front of another one only if it is the front of that
text. -/
theorem encode_prefix_iff {cs ds : List Char} : encode cs <+: encode ds ↔ cs <+: ds := by
  constructor
  · rintro ⟨rest, h⟩
    have hd := decode_eq_ok_iff.2 h.symm
    rw [decode, decodeFrom_encode] at hd
    obtain ⟨es, -, rfl⟩ := of_map_eq_ok hd
    exact List.prefix_append cs es
  · rintro ⟨es, rfl⟩
    rw [encode_append]
    exact List.prefix_append _ _

theorem encode_eq_nil_iff {cs : List Char} : encode cs = [] ↔ cs = [] := by
  constructor
  · intro h
    have hp : encode cs <+: encode [] := by
      rw [h]
      exact List.nil_prefix
    exact List.prefix_nil.1 (encode_prefix_iff.1 hp)
  · rintro rfl
    rfl

theorem encode_injective {cs ds : List Char} (h : encode cs = encode ds) : cs = ds :=
  Except.ok.inj ((decode_eq_ok_iff.2 h).symm.trans (decode_eq_ok_iff.2 rfl))

/-- A character has a first octet that continues none, and octets that continue it. -/
theorem encodeChar_lead (c : Char) :
    ∃ b bs, encodeChar c = b :: bs ∧ ¬ IsTail b ∧ ∀ t ∈ bs, IsTail t :=
  (written_encodeChar c).lead

/-- No text is written from an octet on that continues a character. -/
theorem not_encode_prefix_tail {cs : List Char} (hne : cs ≠ []) {t : UInt8} (ht : IsTail t)
    (rest : List UInt8) : ¬ encode cs <+: t :: rest := by
  cases cs with
  | nil => exact absurd rfl hne
  | cons c cs =>
    obtain ⟨b, bs, hb, hlead, -⟩ := encodeChar_lead c
    rw [encode_cons, hb, List.cons_append, List.cons_prefix_cons]
    rintro ⟨rfl, -⟩
    exact hlead ht

end ModBuild.Encoding.Utf8
