import Mathlib.Data.List.TakeWhile
import ModBuild.Encoding.SingleOctet

/-!
# Where octets are no text of one octet per character

Latin-1 and ASCII are one reader with a limit.  It fails at the first octet that is not below
the limit (`decodeFrom_eq_error_iff`).  Where it does not fail, every octet is the character of
its number (`of_decodeFrom_ok`).
-/

namespace ModBuild.Encoding

/-! ## Runs -/

/-- The first run of items with a property: no item in front of it has the property, all of the
run have it, and the item behind it, if there is one, has it not. -/
structure FirstRun {α : Type} (P : α → Prop) (items before : List α) (first : α)
    (rest after : List α) : Prop where
  eq : items = before ++ first :: (rest ++ after)
  before : ∀ a ∈ before, ¬ P a
  first : P first
  rest : ∀ a ∈ rest, P a
  after : ∀ a ∈ after.head?, ¬ P a

section FirstRun

variable {α : Type} {P : α → Prop}

/-- Without a first run no item has the property. -/
theorem forall_not_or_firstRun [DecidablePred P] (items : List α) :
    (∀ a ∈ items, ¬ P a) ∨ ∃ before first rest after, FirstRun P items before first rest after := by
  induction items with
  | nil => exact Or.inl fun _ ha => absurd ha List.not_mem_nil
  | cons a items ih =>
    by_cases ha : P a
    · refine Or.inr ⟨[], a, items.takeWhile (P ·), items.dropWhile (P ·), ?_, ?_, ha, ?_, ?_⟩
      · rw [List.takeWhile_append_dropWhile]
        rfl
      · exact fun _ hb => absurd hb List.not_mem_nil
      · exact fun b hb => by simpa using List.mem_takeWhile_imp hb
      · intro b hb hP
        have hhead := List.head?_dropWhile_not (P ·) items
        rw [Option.mem_def.1 hb] at hhead
        simp [hP] at hhead
    · rcases ih with hnone | ⟨before, first, rest, after, hrun⟩
      · exact Or.inl (List.forall_mem_cons.2 ⟨ha, hnone⟩)
      · exact Or.inr ⟨a :: before, first, rest, after, by rw [hrun.eq]; rfl,
          List.forall_mem_cons.2 ⟨ha, hrun.before⟩, hrun.first, hrun.rest, hrun.after⟩

/-- The rest of a run is what is taken while the property holds. -/
theorem takeWhile_rest {P : α → Bool} {rest after : List α} (hrest : ∀ a ∈ rest, P a)
    (hafter : ∀ a ∈ after.head?, ¬ P a) : (rest ++ after).takeWhile P = rest := by
  rw [List.takeWhile_append_of_pos hrest]
  cases after with
  | nil => simp
  | cons a after => simp [hafter a rfl]

end FirstRun

namespace SingleOctet

variable {scheme : Scheme} {limit position : Nat}

theorem decodeFrom_of_forall {octets : List UInt8} (h : ∀ b ∈ octets, b.toNat < limit) :
    decodeFrom scheme limit position octets = .ok (octets.map fun b => .ofNat b.toNat) := by
  induction octets generalizing position with
  | nil => rfl
  | cons b octets ih =>
    obtain ⟨hb, hrest⟩ := List.forall_mem_cons.1 h
    rw [decodeFrom, if_pos hb, ih hrest]
    rfl

/-- The fault is at the first octet that is not below the limit. -/
theorem decodeFrom_of_first {before after : List UInt8} {b : UInt8}
    (h : ∀ a ∈ before, a.toNat < limit) (hb : limit ≤ b.toNat) :
    decodeFrom scheme limit position (before ++ b :: after) =
      .error ⟨scheme, position + before.length, 1, b, .outOfRange limit⟩ := by
  induction before generalizing position with
  | nil => rw [List.nil_append, decodeFrom, if_neg (Nat.not_lt.2 hb)]; rfl
  | cons a before ih =>
    obtain ⟨ha, hrest⟩ := List.forall_mem_cons.1 h
    rw [List.cons_append, decodeFrom, if_pos ha, ih hrest, List.length_cons,
      Nat.add_right_comm, Nat.add_assoc]
    rfl

theorem decodeFrom_eq_error_iff {octets : List UInt8} {e : DecodeError} :
    decodeFrom scheme limit position octets = .error e ↔
      ∃ before b after, octets = before ++ b :: after ∧ (∀ a ∈ before, a.toNat < limit) ∧
        limit ≤ b.toNat ∧ e = ⟨scheme, position + before.length, 1, b, .outOfRange limit⟩ := by
  constructor
  · intro h
    rcases forall_not_or_firstRun (P := fun b : UInt8 => limit ≤ b.toNat) octets with
      hall | ⟨before, b, rest, after, hrun⟩
    · rw [decodeFrom_of_forall fun b hb => Nat.not_le.1 (hall b hb)] at h
      cases h
    · have hbefore := fun a ha => Nat.not_le.1 (hrun.before a ha)
      rw [hrun.eq, decodeFrom_of_first hbefore hrun.first] at h
      exact ⟨before, b, rest ++ after, hrun.eq, hbefore, hrun.first, (Except.error.inj h).symm⟩
  · rintro ⟨before, b, after, rfl, hbefore, hb, rfl⟩
    exact decodeFrom_of_first hbefore hb

theorem decodeFrom_fails_iff {octets : List UInt8} :
    (∃ e, decodeFrom scheme limit position octets = .error e) ↔ ∃ b ∈ octets, limit ≤ b.toNat := by
  constructor
  · rintro ⟨e, he⟩
    obtain ⟨before, b, after, rfl, -, hb, -⟩ := decodeFrom_eq_error_iff.1 he
    exact ⟨b, by simp, hb⟩
  · rintro ⟨b, hb, hlimit⟩
    rcases forall_not_or_firstRun (P := fun b : UInt8 => limit ≤ b.toNat) octets with
      hall | ⟨before, a, rest, after, hrun⟩
    · exact absurd hlimit (hall b hb)
    · rw [hrun.eq]
      exact ⟨_, decodeFrom_of_first (fun a ha => Nat.not_le.1 (hrun.before a ha)) hrun.first⟩

theorem of_decodeFrom_ok {octets : List UInt8} {text : List Char}
    (h : decodeFrom scheme limit position octets = .ok text) :
    (∀ b ∈ octets, b.toNat < limit) ∧ text = octets.map fun b => .ofNat b.toNat := by
  rcases forall_not_or_firstRun (P := fun b : UInt8 => limit ≤ b.toNat) octets with
    hall | ⟨before, b, rest, after, hrun⟩
  · have hlt : ∀ b ∈ octets, b.toNat < limit := fun b hb => Nat.not_le.1 (hall b hb)
    rw [decodeFrom_of_forall hlt] at h
    exact ⟨hlt, (Except.ok.inj h).symm⟩
  · rw [hrun.eq, decodeFrom_of_first (fun a ha => Nat.not_le.1 (hrun.before a ha)) hrun.first] at h
    cases h

/-- What was read is below the limit. -/
theorem lt_of_decodeFrom {octets : List UInt8} {text : List Char}
    (h : decodeFrom scheme limit position octets = .ok text) : ∀ c ∈ text, c.toNat < limit := by
  obtain ⟨hoctets, rfl⟩ := of_decodeFrom_ok h
  intro c hc
  obtain ⟨b, hb, rfl⟩ := List.mem_map.1 hc
  have hvalid : b.toNat.isValidChar := Or.inl (Nat.lt_trans b.toNat_lt (by decide))
  have hnumber : (Char.ofNat b.toNat).toNat = b.toNat := by
    rw [Char.ofNat, dif_pos hvalid]
    rfl
  rw [hnumber]
  exact hoctets b hb

end SingleOctet

end ModBuild.Encoding
