import ModBuild.Yaml.Fault

/-!
# Octets in base 64

Every four letters stand for three octets.  Characters that are no letters of
base 64 count for nothing.  The text ends with the fill that completes a group
of four, or with its last letter, and a group that is not complete is a fault.
-/

namespace ModBuild.Yaml.Binary

/-- The value of a letter of base 64. -/
def letterValue? (c : Char) : Option Nat :=
  if 'A' ≤ c ∧ c ≤ 'Z' then some (c.toNat - 65)
  else if 'a' ≤ c ∧ c ≤ 'z' then some (c.toNat - 71)
  else if c.isDigit then some (c.toNat + 4)
  else if c = '+' then some 62
  else if c = '/' then some 63
  else none

/-- The octet that a letter completes, if it is not the first of its group.  The
number before it holds the bits that are left over. -/
def octet? (place bits letter : Nat) : Option UInt8 :=
  match place with
  | 0 => none
  | 1 => some (.ofNat (bits * 4 + letter / 16))
  | 2 => some (.ofNat (bits * 16 + letter / 4))
  | _ => some (.ofNat (bits * 64 + letter))

/-- The bits of a letter that are left for the next octet. -/
def bitsLeft (place letter : Nat) : Nat :=
  match place with
  | 0 => letter
  | 1 => letter % 16
  | 2 => letter % 4
  | _ => 0

/-- Read octets, from a place in a group of four on, with some bits left over
and some fill seen since the last letter. -/
def octets? (place bits fill : Nat) : List Char → Option (List UInt8)
  | [] => if place = 0 then some [] else none
  | c :: cs =>
    if c = '=' then
      if 2 ≤ place then
        if 4 ≤ place + fill + 1 then some [] else octets? place bits (fill + 1) cs
      else
        octets? place bits fill cs
    else
      match letterValue? c with
      | none => octets? place bits fill cs
      | some letter =>
        (octets? ((place + 1) % 4) (bitsLeft place letter) 0 cs).map
          ((octet? place bits letter).toList ++ ·)

/-- The octets of a text, which may hold characters of ASCII only. -/
def ofText (text : String) : Except Fault (List UInt8) :=
  if text.toList.all fun c => c.toNat < 128 then
    match octets? 0 0 0 text.toList with
    | some bs => .ok bs
    | none => .error .notYaml
  else
    .error .notYaml

example : (ofText "aGk=").toOption = some [104, 105] := by decide +kernel
example : (ofText "aG k").toOption = none := by decide +kernel

end ModBuild.Yaml.Binary
