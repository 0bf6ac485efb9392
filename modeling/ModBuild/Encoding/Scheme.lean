import ModBuild.Encoding.SingleOctet
import ModBuild.Encoding.Utf8

/-!
# Reading and writing text in a scheme

Each scheme has a reader and a writer.  Reading Latin-1 never fails.  Writing can
fail in every scheme, as there are code points without octets: the surrogates in
UTF-8, and those from a number on in the other two.  A text is refused at the
first run of such code points.
-/

namespace ModBuild.Encoding.Scheme

/-- Read octets as text. -/
def decode (scheme : Scheme) (bs : List UInt8) : Except DecodeError (List Char) :=
  match scheme with
  | .utf8 => Utf8.decode bs
  | .latin1 => SingleOctet.decodeFrom scheme 256 0 bs
  | .ascii => SingleOctet.decodeFrom scheme 128 0 bs

/-- The octets of a code point. -/
def encodePoint? : Scheme → Point → Option (List UInt8)
  | .utf8, p => Utf8.encodePoint? p
  | .latin1, p => SingleOctet.encodePoint? 256 p
  | .ascii, p => SingleOctet.encodePoint? 128 p

/-- Write code points from a position on. -/
def encodeFrom (scheme : Scheme) (position : Nat) :
    List Point → Except EncodeError (List UInt8)
  | [] => .ok []
  | p :: ps =>
    match scheme.encodePoint? p with
    | some octets => (octets ++ ·) <$> encodeFrom scheme (position + 1) ps
    | none =>
      let run := (p :: ps).takeWhile fun q => (scheme.encodePoint? q).isNone
      .error ⟨scheme, position, run.length, p⟩

/-- Write text as octets. -/
def encode (scheme : Scheme) (ps : List Point) : Except EncodeError (List UInt8) :=
  scheme.encodeFrom 0 ps

example : (encode .ascii (points "aéèb")).mapError EncodeError.message = .error
    "'ascii' codec can't encode characters in position 1-2: ordinal not in range(128)" := by
  rfl
example : (encode .utf8 [.char 'a', .surrogate ⟨0xD800, by decide, by decide⟩]).mapError
    EncodeError.message = .error
      "'utf-8' codec can't encode character '\\ud800' in position 1: surrogates not allowed" := by
  rfl

end ModBuild.Encoding.Scheme
