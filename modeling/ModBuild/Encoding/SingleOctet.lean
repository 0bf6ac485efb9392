import ModBuild.Encoding.Basic

/-!
# One octet per character

Latin-1 and ASCII write a code point as its number, if it is below a limit: 256
for the one, 128 for the other.
-/

namespace ModBuild.Encoding.SingleOctet

/-- Read octets from a position on. -/
def decodeFrom (scheme : Scheme) (limit position : Nat) :
    List UInt8 → Except DecodeError (List Char)
  | [] => .ok []
  | b :: bs =>
    if b.toNat < limit then
      (Char.ofNat b.toNat :: ·) <$> decodeFrom scheme limit (position + 1) bs
    else
      .error ⟨scheme, position, 1, b, .outOfRange limit⟩

/-- The octet of a code point, if its number is below the limit. -/
def encodePoint? (limit : Nat) (p : Point) : Option (List UInt8) :=
  if p.number < limit then some [.ofNat p.number] else none

end ModBuild.Encoding.SingleOctet
