import ModBuild.Encoding.Basic

/-!
# UTF-8

A character takes one to four octets.  The first tells how many follow, and
bounds the second so that no character has two written forms, none is a
surrogate and none lies above U+10FFFF.

The decoder reads one octet at a time.  Between the octets of a character it
holds what was *begun*: the octets read, the value so far and the bounds for
the next octet.  It refuses at the first octet that no text continues with.
The span of a fault is what was begun, and the offending octet is not part of
it unless nothing was begun.
-/

namespace ModBuild.Encoding.Utf8

/-- The octets of a character. -/
def encodeChar (c : Char) : List UInt8 :=
  let n := c.toNat
  if n < 0x80 then
    [.ofNat n]
  else if n < 0x800 then
    [.ofNat (0xC0 + n / 64), .ofNat (0x80 + n % 64)]
  else if n < 0x10000 then
    [.ofNat (0xE0 + n / 4096), .ofNat (0x80 + n / 64 % 64), .ofNat (0x80 + n % 64)]
  else
    [.ofNat (0xF0 + n / 262144), .ofNat (0x80 + n / 4096 % 64), .ofNat (0x80 + n / 64 % 64),
      .ofNat (0x80 + n % 64)]

/-- The octets of a text. -/
def encode (cs : List Char) : List UInt8 :=
  cs.flatMap encodeChar

/-- The octets of a code point, if it is a character. -/
def encodePoint? : Point → Option (List UInt8)
  | .char c => some (encodeChar c)
  | .surrogate _ => none

/-- A character that is begun and not finished. -/
structure Begun where
  /-- The position of its first octet. -/
  start : Nat
  first : UInt8
  /-- How many of its octets were read. -/
  count : Nat
  /-- How many octets follow the next one. -/
  after : Nat
  /-- The value of the octets read. -/
  value : Nat
  low : Nat
  high : Nat
deriving DecidableEq, Repr

/-- What the first octet of a character of several octets begins. -/
def begin? (position : Nat) (b : UInt8) : Option Begun :=
  let n := b.toNat
  if 0xC2 ≤ n ∧ n ≤ 0xDF then
    some ⟨position, b, 1, 0, n - 0xC0, 0x80, 0xBF⟩
  else if 0xE0 ≤ n ∧ n ≤ 0xEF then
    some ⟨position, b, 1, 1, n - 0xE0, if n = 0xE0 then 0xA0 else 0x80,
      if n = 0xED then 0x9F else 0xBF⟩
  else if 0xF0 ≤ n ∧ n ≤ 0xF4 then
    some ⟨position, b, 1, 2, n - 0xF0, if n = 0xF0 then 0x90 else 0x80,
      if n = 0xF4 then 0x8F else 0xBF⟩
  else
    none

/-- The fault of a character that is begun and not continued. -/
def Begun.fail (p : Begun) (fault : DecodeFault) : DecodeError :=
  ⟨.utf8, p.start, p.count, p.first, fault⟩

/-- Read octets from a position on, with a character begun or none. -/
def decodeFrom (position : Nat) : Option Begun → List UInt8 → Except DecodeError (List Char)
  | none, [] => .ok []
  | some p, [] => .error (p.fail .unexpectedEnd)
  | none, b :: bs =>
    if b.toNat < 0x80 then
      (Char.ofNat b.toNat :: ·) <$> decodeFrom (position + 1) none bs
    else
      match begin? position b with
      | some p => decodeFrom (position + 1) (some p) bs
      | none => .error ⟨.utf8, position, 1, b, .badStart⟩
  | some p, b :: bs =>
    if p.low ≤ b.toNat ∧ b.toNat ≤ p.high then
      let value := p.value * 64 + (b.toNat - 0x80)
      match p.after with
      | 0 => (Char.ofNat value :: ·) <$> decodeFrom (position + 1) none bs
      | after + 1 =>
        decodeFrom (position + 1)
          (some { p with count := p.count + 1, after, value, low := 0x80, high := 0xBF }) bs
    else
      .error (p.fail .badContinuation)

/-- The text of a run of octets. -/
def decode (bs : List UInt8) : Except DecodeError (List Char) :=
  decodeFrom 0 none bs

example : encode "aé€😀".toList =
    [0x61, 0xC3, 0xA9, 0xE2, 0x82, 0xAC, 0xF0, 0x9F, 0x98, 0x80] := by decide +kernel
example : (decode (encode "aé€😀".toList)).toOption = some "aé€😀".toList := by decide +kernel
example : decode [0x61, 0xE2, 0x82] = .error ⟨.utf8, 1, 2, 0xE2, .unexpectedEnd⟩ := by
  rfl
example : decode [0xED, 0xA0, 0x80] = .error ⟨.utf8, 0, 1, 0xED, .badContinuation⟩ := by
  rfl

end ModBuild.Encoding.Utf8
