import ModBuild.Encoding.Scheme
import ModBuild.Proofs.Encoding.SingleOctet

/-!
# Where a scheme fails

A scheme refuses the code points that it has no octets for: UTF-8 the surrogates, and the other
two those from a number on (`Refuses`).  All schemes share one writer.  It fails at the first run
of code points that are refused (`encodeFrom_eq_error_iff`), so it fails if and only if there is
one (`encodeFrom_fails_iff`).

Nothing that was read is refused (`not_refuses_of_decode`), and a text without surrogates is
always written in UTF-8 (`encode_utf8`).
-/

namespace ModBuild.Encoding

/-- A code point is no character. -/
def Point.IsSurrogate (p : Point) : Prop :=
  ∃ s, p = .surrogate s

namespace Scheme

/-- The code points that a scheme cannot write. -/
def Refuses : Scheme → Point → Prop
  | .utf8, p => p.IsSurrogate
  | .latin1, p => 256 ≤ p.number
  | .ascii, p => 128 ≤ p.number

variable {scheme : Scheme} {position : Nat} {p : Point} {ps before rest after : List Point}

/-! ## One code point -/

/-- What is refused has no octets. -/
theorem isNone_encodePoint?_iff : (scheme.encodePoint? p).isNone ↔ scheme.Refuses p := by
  cases scheme with
  | utf8 => cases p <;> simp [encodePoint?, Utf8.encodePoint?, Refuses, Point.IsSurrogate]
  | latin1 => simp [encodePoint?, SingleOctet.encodePoint?, Refuses]
  | ascii => simp [encodePoint?, SingleOctet.encodePoint?, Refuses]

instance (scheme : Scheme) : DecidablePred scheme.Refuses :=
  fun _ => decidable_of_iff _ isNone_encodePoint?_iff

theorem encodePoint?_of_refuses (h : scheme.Refuses p) : scheme.encodePoint? p = none :=
  Option.isNone_iff_eq_none.1 (isNone_encodePoint?_iff.2 h)

theorem exists_encodePoint? (h : ¬ scheme.Refuses p) :
    ∃ octets, scheme.encodePoint? p = some octets := by
  rw [← isNone_encodePoint?_iff, Option.isNone_iff_eq_none] at h
  exact Option.ne_none_iff_exists'.1 h

/-! ## Writing -/

theorem encodeFrom_of_forall (h : ∀ p ∈ ps, ¬ scheme.Refuses p) :
    ∃ octets, scheme.encodeFrom position ps = .ok octets := by
  induction ps generalizing position with
  | nil => exact ⟨[], rfl⟩
  | cons p ps ih =>
    obtain ⟨hp, hrest⟩ := List.forall_mem_cons.1 h
    obtain ⟨first, hfirst⟩ := exists_encodePoint? hp
    obtain ⟨others, hothers⟩ : ∃ others, scheme.encodeFrom (position + 1) ps = .ok others :=
      ih hrest
    refine ⟨first ++ others, ?_⟩
    rw [encodeFrom, hfirst, hothers]
    rfl

/-- The fault covers the first run of code points that are refused. -/
theorem encodeFrom_of_firstRun (h : FirstRun scheme.Refuses ps before p rest after) :
    scheme.encodeFrom position ps =
      .error ⟨scheme, position + before.length, rest.length + 1, p⟩ := by
  obtain ⟨rfl, hbefore, hp, hrest, hafter⟩ := h
  simp only [← isNone_encodePoint?_iff] at hrest hafter
  induction before generalizing position with
  | nil =>
    rw [List.nil_append, encodeFrom, encodePoint?_of_refuses hp]
    dsimp only
    rw [List.takeWhile_cons, if_pos (isNone_encodePoint?_iff.2 hp), takeWhile_rest hrest hafter]
    rfl
  | cons q before ih =>
    obtain ⟨hq, hbefore⟩ := List.forall_mem_cons.1 hbefore
    obtain ⟨octets, hoctets⟩ := exists_encodePoint? hq
    rw [List.cons_append, encodeFrom, hoctets, ih hbefore, List.length_cons, Nat.add_right_comm,
      Nat.add_assoc]
    rfl

theorem encodeFrom_eq_error_iff {e : EncodeError} :
    scheme.encodeFrom position ps = .error e ↔
      ∃ before p rest after, FirstRun scheme.Refuses ps before p rest after ∧
        e = ⟨scheme, position + before.length, rest.length + 1, p⟩ := by
  constructor
  · intro h
    rcases forall_not_or_firstRun (P := scheme.Refuses) ps with
      hall | ⟨before, p, rest, after, hrun⟩
    · obtain ⟨octets, hok⟩ : ∃ octets, scheme.encodeFrom position ps = .ok octets :=
        encodeFrom_of_forall hall
      rw [hok] at h
      cases h
    · rw [encodeFrom_of_firstRun hrun] at h
      exact ⟨before, p, rest, after, hrun, (Except.error.inj h).symm⟩
  · rintro ⟨before, p, rest, after, hrun, rfl⟩
    exact encodeFrom_of_firstRun hrun

theorem encodeFrom_fails_iff :
    (∃ e, scheme.encodeFrom position ps = .error e) ↔ ∃ p ∈ ps, scheme.Refuses p := by
  constructor
  · rintro ⟨e, he⟩
    obtain ⟨before, p, rest, after, hrun, -⟩ := encodeFrom_eq_error_iff.1 he
    exact ⟨p, by rw [hrun.eq]; simp, hrun.first⟩
  · rintro ⟨p, hp, hrefuses⟩
    rcases forall_not_or_firstRun (P := scheme.Refuses) ps with
      hall | ⟨before, q, rest, after, hrun⟩
    · exact absurd hrefuses (hall p hp)
    · exact ⟨_, encodeFrom_of_firstRun hrun⟩

/-- A text without surrogates is written in UTF-8. -/
theorem encode_utf8 (cs : List Char) : encode .utf8 (cs.map .char) = .ok (Utf8.encode cs) := by
  have hfrom (position : Nat) :
      encodeFrom .utf8 position (cs.map .char) = .ok (Utf8.encode cs) := by
    induction cs generalizing position with
    | nil => rfl
    | cons c cs ih =>
      rw [List.map_cons, encodeFrom, ih]
      rfl
  exact hfrom 0

/-! ## Reading -/

/-- Every octet is a character of Latin-1. -/
theorem decode_latin1 (octets : List UInt8) :
    decode .latin1 octets = .ok (octets.map fun b => .ofNat b.toNat) :=
  SingleOctet.decodeFrom_of_forall fun b _ => b.toNat_lt

/-- What was read can be written. -/
theorem not_refuses_of_decode {octets : List UInt8} {text : List Char}
    (h : scheme.decode octets = .ok text) : ∀ c ∈ text, ¬ scheme.Refuses (.char c) := by
  intro c hc
  cases scheme with
  | utf8 =>
    rintro ⟨s, hs⟩
    cases hs
  | latin1 => exact Nat.not_le.2 (SingleOctet.lt_of_decodeFrom h c hc)
  | ascii => exact Nat.not_le.2 (SingleOctet.lt_of_decodeFrom h c hc)

end Scheme

end ModBuild.Encoding
