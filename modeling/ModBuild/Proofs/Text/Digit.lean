import Mathlib.Data.List.Forall2
import Mathlib.Data.Nat.Digits.Defs
import Mathlib.Tactic.Ring
import ModBuild.Text.Digit

/-!
# Numerals

A *numeral* is a run of one or more decimal digits of any scripts, and it counts by their
values in base ten (`Numeral`).  This is how a run of digits is read (`numeral_iff`).  The
*canonical* numeral of a number has the digits from `0` to `9` only, and no zeros in front
of them (`Canonical`).  It is the one that is written, and there is no other
(`canonical_iff`).
-/

namespace ModBuild.Text

variable {c : Char} {cs : List Char} {n : Nat}

/-! ## Reading -/

/-- A run of decimal digits that counts a number in base ten. -/
def Numeral (cs : List Char) (n : Nat) : Prop :=
  cs ≠ [] ∧ ∃ values : List Nat, List.Forall₂ (fun c d => digitValue? c = some d) cs values ∧
    n = Nat.ofDigits 10 values.reverse

/-- What was read before counts for as many places as there are digits behind it. -/
theorem digitsValue_eq_ofDigits {values : List Nat}
    (h : List.Forall₂ (fun c d => digitValue? c = some d) cs values) (before : Nat) :
    digitsValue before cs = before * 10 ^ cs.length + Nat.ofDigits 10 values.reverse := by
  induction h generalizing before with
  | nil => simp [digitsValue]
  | @cons c d cs values hc hcs ih =>
    have hlength : values.length = cs.length := hcs.length_eq.symm
    rw [digitsValue, hc, Option.getD_some, ih, List.reverse_cons, Nat.ofDigits_append,
      Nat.ofDigits_singleton, List.length_reverse, hlength, List.length_cons]
    ring

theorem numeral_iff :
    Numeral cs n ↔ cs ≠ [] ∧ (∀ c ∈ cs, isDigit c = true) ∧ n = digitsValue 0 cs := by
  constructor
  · rintro ⟨hne, values, hvalues, rfl⟩
    have hdigits : List.Forall₂ (fun c d => isDigit c = true ∧ digitValue? c = some d) cs values :=
      hvalues.imp fun c d hd => ⟨by simp [isDigit, hd], hd⟩
    obtain ⟨hcs, -⟩ := (List.forall₂_and_left _ _).1 hdigits
    exact ⟨hne, hcs, by simp [digitsValue_eq_ofDigits hvalues]⟩
  · rintro ⟨hne, hdigits, rfl⟩
    have hvalues : List.Forall₂ (fun c d => digitValue? c = some d) cs
        (cs.map fun c => (digitValue? c).getD 0) := by
      refine List.forall₂_map_right_iff.2 (List.forall₂_same.2 fun c hc => ?_)
      obtain ⟨d, hd⟩ := Option.isSome_iff_exists.1 (hdigits c hc)
      simp [hd]
    exact ⟨hne, _, hvalues, by simp [digitsValue_eq_ofDigits hvalues]⟩

/-- A run of digits ends in front of what is none. -/
theorem takeWhile_isDigit {rest : List Char} (hcs : ∀ c ∈ cs, isDigit c = true)
    (hrest : ∀ c ∈ rest.head?, isDigit c = false) :
    (cs ++ rest).takeWhile isDigit = cs ∧ (cs ++ rest).dropWhile isDigit = rest := by
  rw [List.takeWhile_append_of_pos hcs, List.dropWhile_append_of_pos hcs]
  cases rest with
  | nil => simp
  | cons c rest =>
    have hc : isDigit c = false := hrest c rfl
    simp [hc]

/-! ## Writing -/

/-- The numeral of a number in the digits from `0` to `9`, without zeros in front. -/
structure Canonical (cs : List Char) (n : Nat) : Prop where
  numeral : Numeral cs n
  digits : ∀ c ∈ cs, c.isDigit = true
  /-- A zero in front is the number zero. -/
  noZeros : cs.head? = some '0' → cs = ['0']

theorem digitChar_of_isDigit (h : c.isDigit = true) : Nat.digitChar (c.toNat - 48) = c := by
  simp only [Char.isDigit, Bool.and_eq_true, decide_eq_true_eq] at h
  obtain ⟨lo, hi⟩ := h
  have lo : 48 ≤ c.toNat := lo
  have hi : c.toNat ≤ 57 := hi
  apply Char.toNat_inj.1
  rw [Nat.toNat_digitChar_of_lt_ten (by omega)]
  omega

theorem isDigit_of_isDigit (h : c.isDigit = true) : isDigit c = true := by
  simp [isDigit, digitValue?_of_isDigit h]

theorem value_lt_ten (h : c.isDigit = true) : c.toNat - 48 < 10 := by
  simp only [Char.isDigit, Bool.and_eq_true, decide_eq_true_eq] at h
  have hi : c.toNat ≤ 57 := h.2
  omega

/-- Digits behind those of a number other than zero are those of the number that they make
with it. -/
theorem toDigits_append (h : ∀ c ∈ cs, c.isDigit = true) {before : Nat} (hbefore : 0 < before) :
    Nat.toDigits 10 before ++ cs = Nat.toDigits 10 (digitsValue before cs) := by
  induction cs generalizing before with
  | nil => simp [digitsValue]
  | cons c cs ih =>
    have hc : c.isDigit = true := h c List.mem_cons_self
    have hstep : Nat.toDigits 10 before ++ [c] =
        Nat.toDigits 10 (10 * before + (c.toNat - 48)) := by
      rw [← Nat.toDigits_append_toDigits (by decide) hbefore (value_lt_ten hc),
        Nat.toDigits_of_lt_base (value_lt_ten hc), digitChar_of_isDigit hc]
    calc
      Nat.toDigits 10 before ++ c :: cs = (Nat.toDigits 10 before ++ [c]) ++ cs := by simp
      _ = Nat.toDigits 10 (10 * before + (c.toNat - 48)) ++ cs := by rw [hstep]
      _ = Nat.toDigits 10 (digitsValue (10 * before + (c.toNat - 48)) cs) :=
        ih (fun d hd => h d (List.mem_cons_of_mem c hd)) (by omega)
      _ = Nat.toDigits 10 (digitsValue before (c :: cs)) := by
        rw [digitsValue, digitValue?_of_isDigit hc, Option.getD_some]

/-- The digits of core count as they do there. -/
theorem digitsValue_eq_ofDigitChars (h : ∀ c ∈ cs, c.isDigit = true) (before : Nat) :
    digitsValue before cs = Nat.ofDigitChars 10 cs before := by
  induction cs generalizing before with
  | nil => rfl
  | cons c cs ih =>
    rw [digitsValue, digitValue?_of_isDigit (h c List.mem_cons_self), Option.getD_some,
      ih fun d hd => h d (List.mem_cons_of_mem c hd)]
    rfl

theorem isDigit_of_mem_decimal (h : c ∈ (decimal n).toList) : c.isDigit = true := by
  rw [decimal, String.toList_ofList] at h
  exact Nat.isDigit_of_mem_toDigits (by decide) (by decide) h

/-- What is written is read as it was. -/
theorem digitsValue_decimal (n : Nat) : digitsValue 0 (decimal n).toList = n := by
  rw [digitsValue_eq_ofDigitChars fun c => isDigit_of_mem_decimal, decimal,
    String.toList_ofList, Nat.ofDigitChars_toDigits (by decide) (by decide)]

theorem head?_decimal (h : 0 < n) : (decimal n).toList.head? ≠ some '0' := by
  rw [decimal, String.toList_ofList]
  induction n using Nat.strong_induction_on with
  | _ n ih =>
    rw [Nat.toDigits_eq_if (by decide)]
    split
    · next hn =>
      intro hzero
      have hnumber := congrArg Char.toNat (Option.some.inj hzero)
      rw [Nat.toNat_digitChar_of_lt_ten hn] at hnumber
      exact absurd hnumber (by simp; omega)
    · next hn =>
      rw [List.head?_append_of_ne_nil _ Nat.toDigits_ne_nil]
      exact ih (n / 10) (by omega) (by omega)

theorem canonical_decimal (n : Nat) : Canonical (decimal n).toList n where
  numeral := numeral_iff.2 ⟨by simp [decimal, Nat.toDigits_ne_nil],
    fun _ hc => isDigit_of_isDigit (isDigit_of_mem_decimal hc), (digitsValue_decimal n).symm⟩
  digits := fun _ => isDigit_of_mem_decimal
  noZeros := by
    intro hzero
    cases n with
    | zero => rfl
    | succ n => exact absurd hzero (head?_decimal n.succ_pos)

/-- The canonical numeral of a number is the one that is written. -/
theorem canonical_iff : Canonical cs n ↔ cs = (decimal n).toList := by
  refine ⟨fun h => ?_, fun h => h ▸ canonical_decimal n⟩
  obtain ⟨hne, -, rfl⟩ := numeral_iff.1 h.numeral
  rw [decimal, String.toList_ofList]
  cases cs with
  | nil => exact absurd rfl hne
  | cons c cs =>
    have hc : c.isDigit = true := h.digits c List.mem_cons_self
    rw [digitsValue, digitValue?_of_isDigit hc, Option.getD_some, Nat.mul_zero, Nat.zero_add]
    by_cases hzero : c = '0'
    · obtain ⟨-, rfl⟩ := List.cons.inj (h.noZeros (by rw [hzero]; rfl))
      rw [hzero]
      rfl
    · have hvalue : 0 < c.toNat - 48 := by
        by_contra hnot
        refine hzero ?_
        rw [← digitChar_of_isDigit hc, Nat.eq_zero_of_not_pos hnot]
        rfl
      rw [← toDigits_append (fun d hd => h.digits d (List.mem_cons_of_mem c hd)) hvalue,
        Nat.toDigits_of_lt_base (value_lt_ten hc), digitChar_of_isDigit hc]
      rfl

end ModBuild.Text
