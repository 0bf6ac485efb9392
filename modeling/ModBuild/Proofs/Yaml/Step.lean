import ModBuild.Yaml.Fault

/-!
# Steps that can stop

A step changes a state, or stops with a fault.
-/

namespace ModBuild.Yaml

variable {σ ε α β : Type} {s s' : σ}

theorem run_bind_ok {x : StateT σ (Except ε) α} {f : α → StateT σ (Except ε) β} {a : α}
    (h : x.run s = .ok (a, s')) : (x >>= f).run s = (f a).run s' := by
  rw [StateT.run_bind, h]
  rfl

theorem run_bind_error {x : StateT σ (Except ε) α} {f : α → StateT σ (Except ε) β} {e : ε}
    (h : x.run s = .error e) : (x >>= f).run s = .error e := by
  rw [StateT.run_bind, h]
  rfl

theorem run_get : (get : StateT σ (Except ε) σ).run s = .ok (s, s) := rfl

/-- A step does not stop, and something holds afterwards. -/
def Succeeds (x : StateT σ (Except ε) Unit) (s : σ) (after : σ → Prop) : Prop :=
  ∃ s', x.run s = .ok ((), s') ∧ after s'

theorem Succeeds.bind {x y : StateT σ (Except ε) Unit} {after after' : σ → Prop}
    (h : Succeeds x s after) (h' : ∀ s', after s' → Succeeds y s' after') :
    Succeeds (x >>= fun _ => y) s after' := by
  obtain ⟨s₁, hx, hafter⟩ := h
  obtain ⟨s₂, hy, hafter'⟩ := h' s₁ hafter
  exact ⟨s₂, (run_bind_ok hx).trans hy, hafter'⟩

theorem Succeeds.congr {x y : StateT σ (Except ε) Unit} {s' : σ} {after : σ → Prop}
    (h : Succeeds y s' after) (hrun : x.run s = y.run s') : Succeeds x s after := by
  obtain ⟨s₁, hy, hafter⟩ := h
  exact ⟨s₁, hrun.trans hy, hafter⟩

theorem Succeeds.mono {x : StateT σ (Except ε) Unit} {after after' : σ → Prop}
    (h : Succeeds x s after) (hafter : ∀ s', after s' → after' s') : Succeeds x s after' := by
  obtain ⟨s₁, hx, h₁⟩ := h
  exact ⟨s₁, hx, hafter s₁ h₁⟩

/-- Steps, one for each of some things, of which each keeps an invariant, moves on by a preorder,
and brings about something that lasts. -/
theorem Succeeds.forM {I : σ → Prop} {R : σ → σ → Prop} {Q : α → σ → Prop}
    {f : α → StateT σ (Except ε) Unit} {as : List α} (hrefl : ∀ s, R s s)
    (htrans : ∀ {s₁ s₂ s₃}, R s₁ s₂ → R s₂ s₃ → R s₁ s₃)
    (hlasts : ∀ {a s₁ s₂}, R s₁ s₂ → Q a s₁ → Q a s₂)
    (h : ∀ a ∈ as, ∀ s, I s → Succeeds (f a) s fun s' => I s' ∧ R s s' ∧ Q a s') (hs : I s) :
    Succeeds (as.forM f) s fun s' => I s' ∧ R s s' ∧ ∀ a ∈ as, Q a s' := by
  induction as generalizing s with
  | nil => exact ⟨s, rfl, hs, hrefl s, nofun⟩
  | cons a as ih =>
    refine Succeeds.bind (h a List.mem_cons_self s hs) ?_
    rintro s₁ ⟨hI, hR, hQ⟩
    obtain ⟨s₂, hrun, hI', hR', hQ'⟩ := ih (fun b hb => h b (List.mem_cons_of_mem a hb)) hI
    refine ⟨s₂, hrun, hI', htrans hR hR', ?_⟩
    rintro b (_ | ⟨_, hb⟩)
    · exact hlasts hR' hQ
    · exact hQ' b hb

end ModBuild.Yaml
