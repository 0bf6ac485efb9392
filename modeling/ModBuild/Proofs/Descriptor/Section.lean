import ModBuild.Proofs.Descriptor.Form

/-!
# Reading fields

What it means that a step of a reader gives a value.  A field that must be there
gives its text exactly if it holds one (`Section.text_eq_ok_iff`), and a field that
may be absent or null gives nothing if it is (`Section.optionalText_eq_ok_iff`).
-/

namespace ModBuild

open Document

/-- A run that gives a value has run its first step. -/
theorem bind_eq_ok_iff {ε α β : Type} {x : Except ε α} {f : α → Except ε β} {b : β} :
    (x >>= f) = .ok b ↔ ∃ a, x = .ok a ∧ f a = .ok b := by
  cases x with
  | error e => exact iff_of_false (fun h => nomatch h) (fun ⟨_, h, _⟩ => nomatch h)
  | ok a =>
    constructor
    · intro h
      exact ⟨a, rfl, h⟩
    · intro hx
      obtain ⟨_, ha, h⟩ := hx
      cases ha
      exact h

theorem pure_eq_ok_iff {ε α : Type} {a b : α} :
    (pure a : Except ε α) = .ok b ↔ a = b :=
  ⟨fun h => Except.ok.inj h, fun h => h ▸ rfl⟩

/-! ## Fields -/

namespace Section

theorem require_eq_ok_iff {s : Section} {place : Place} {field : String} {v : Value} :
    s.require place field = .ok v ↔ s.get? field = some v := by
  unfold require
  cases s.get? field <;> simp

theorem ofValue_eq_ok_iff {place : Place} {v : Value} {s : Section} :
    ofValue place v = .ok s ↔ v = .map s := by
  unfold ofValue
  cases v <;> simp [Value.entries?]

theorem text_eq_ok_iff {s : Section} {place : Place} {field t : String} :
    s.text place field = .ok t ↔ s.Has field t := by
  unfold text Has
  rw [bind_eq_ok_iff]
  simp only [require_eq_ok_iff]
  constructor
  · intro hx
    obtain ⟨v, hv, ht⟩ := hx
    rw [hv]
    cases v <;> simp [Value.text?] at ht ⊢
    exact ht
  · intro h
    exact ⟨_, h, rfl⟩

theorem Lacks.not_has {s : Section} {field t : String} (h : s.Lacks field) :
    ¬ s.Has field t := by
  intro ht
  rcases h with h | h <;> cases h.symm.trans ht

theorem optionalText_eq_ok_iff {s : Section} {place : Place} {field : String}
    {o : Option String} : s.optionalText place field = .ok o ↔ s.HasOptional field o := by
  by_cases hl : s.Lacks field
  · have hnone : s.optionalText place field = .ok none := by
      rcases hl with h | h <;> simp [optionalText, h]
    rw [hnone]
    constructor
    · intro h
      cases h
      exact Or.inl ⟨hl, rfl⟩
    · intro hx
      rcases hx with ⟨-, rfl⟩ | ⟨t, ht, -⟩
      · rfl
      · exact absurd ht hl.not_has
  · have hsome : s.optionalText place field = some <$> s.text place field := by
      unfold optionalText
      split
      · next h => exact absurd (Or.inl h) hl
      · next h => exact absurd (Or.inr h) hl
      · rfl
    rw [hsome]
    constructor
    · intro h
      cases ht : s.text place field with
      | error f => rw [ht] at h; cases h
      | ok t =>
        rw [ht] at h
        cases h
        exact Or.inr ⟨t, text_eq_ok_iff.1 ht, rfl⟩
    · intro hx
      rcases hx with ⟨h, -⟩ | ⟨t, ht, rfl⟩
      · exact absurd h hl
      · rw [text_eq_ok_iff.2 ht]
        rfl

/-- A field that may be absent or null is one of these or holds a text. -/
theorem exists_hasOptional_iff {s : Section} {field : String} :
    (∃ o, s.HasOptional field o) ↔ s.Lacks field ∨ s.HasText field := by
  constructor
  · intro hx
    obtain ⟨o, ⟨h, -⟩ | ⟨t, ht, -⟩⟩ := hx
    · exact Or.inl h
    · exact Or.inr ⟨t, ht⟩
  · intro hx
    rcases hx with h | ⟨t, ht⟩
    · exact ⟨none, Or.inl ⟨h, rfl⟩⟩
    · exact ⟨some t, Or.inr ⟨t, ht, rfl⟩⟩

end Section

/-! ## Lists of parts -/

/-- Parts that can all be described are described by a list. -/
theorem exists_forall₂_iff {α β : Type} {R : α → β → Prop} {P : α → Prop}
    (h : ∀ a, (∃ b, R a b) ↔ P a) (as : List α) :
    (∃ bs, List.Forall₂ R as bs) ↔ ∀ a ∈ as, P a := by
  induction as with
  | nil => exact iff_of_true ⟨[], .nil⟩ (by simp)
  | cons a as ih =>
    rw [List.forall_mem_cons, ← ih, ← h]
    constructor
    · intro hx
      obtain ⟨_, hbs⟩ := hx
      cases hbs with
      | cons hb hbs => exact ⟨⟨_, hb⟩, ⟨_, hbs⟩⟩
    · intro hx
      obtain ⟨⟨b, hb⟩, ⟨bs, hbs⟩⟩ := hx
      exact ⟨b :: bs, .cons hb hbs⟩

end ModBuild
