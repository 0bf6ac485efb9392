/-!
# Decimal digits

The decimal digits of Unicode come in runs of ten, from zero to nine, one run
per script or style.  The table holds the zero of every run.  A *number* is a
run of such digits, which may be of different scripts, and it counts by their
values.
-/

namespace ModBuild.Text

/-- The zeros of the decimal digits of Unicode 14, in ascending order. -/
def zeroDigits : List Nat :=
  [0x30, 0x660, 0x6F0, 0x7C0, 0x966, 0x9E6, 0xA66, 0xAE6, 0xB66, 0xBE6, 0xC66, 0xCE6, 0xD66,
    0xDE6, 0xE50, 0xED0, 0xF20, 0x1040, 0x1090, 0x17E0, 0x1810, 0x1946, 0x19D0, 0x1A80, 0x1A90,
    0x1B50, 0x1BB0, 0x1C40, 0x1C50, 0xA620, 0xA8D0, 0xA900, 0xA9D0, 0xA9F0, 0xAA50, 0xABF0,
    0xFF10, 0x104A0, 0x10D30, 0x11066, 0x110F0, 0x11136, 0x111D0, 0x112F0, 0x11450, 0x114D0,
    0x11650, 0x116C0, 0x11730, 0x118E0, 0x11950, 0x11C50, 0x11D50, 0x11DA0, 0x16A60, 0x16AC0,
    0x16B50, 0x1D7CE, 0x1D7D8, 0x1D7E2, 0x1D7EC, 0x1D7F6, 0x1E140, 0x1E2F0, 0x1E950, 0x1FBF0]

/-- The value of a decimal digit of any script, below ten. -/
def digitValue? (c : Char) : Option Nat :=
  (zeroDigits.find? fun z => z ≤ c.toNat && c.toNat < z + 10).map (c.toNat - ·)

/-- A decimal digit of any script. -/
def isDigit (c : Char) : Bool :=
  (digitValue? c).isSome

/-- The number that a run of digits counts, read from the left on top of the
digits read before. -/
def digitsValue (before : Nat) : List Char → Nat
  | [] => before
  | c :: cs => digitsValue (10 * before + (digitValue? c).getD 0) cs

/-- A natural number in decimal digits without leading zeros. -/
def decimal (n : Nat) : String :=
  .ofList (Nat.toDigits 10 n)

/-- The digits of core are digits here, with the value that core gives them. -/
theorem digitValue?_of_isDigit {c : Char} (h : c.isDigit = true) :
    digitValue? c = some (c.toNat - 48) := by
  simp only [Char.isDigit, Bool.and_eq_true, decide_eq_true_eq] at h
  obtain ⟨lo, hi⟩ := h
  have lo : 48 ≤ c.toNat := lo
  have hi : c.toNat ≤ 57 := hi
  simp [digitValue?, zeroDigits, show 48 ≤ c.toNat from lo, show c.toNat < 58 by omega]

example : zeroDigits.length = 66 := by decide
example : digitsValue 0 "٣7".toList = 37 := by decide

end ModBuild.Text
