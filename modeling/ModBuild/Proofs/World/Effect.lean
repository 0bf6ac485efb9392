import ModBuild.Proofs.Files.Access

/-!
# Effects

The *effect* of an action tells what it gives, the files after it, the calls that it
makes and the lines that it writes to the log.  `HasEffect` says besides that
temporary directories have no part in it: the effect is the same whether they can be
made and removed or not.
-/

namespace ModBuild

/-- What an action does. -/
structure Effect (α : Type) where
  /-- What it gives. -/
  result : Except Failure α
  /-- The files after it. -/
  files : FileTree
  /-- The calls that it makes. -/
  calls : List Call
  /-- The lines that it writes to the log. -/
  lines : List LogLine

/-- An effect that changes nothing. -/
def Effect.still {α : Type} (result : Except Failure α) (w : World) : Effect α :=
  ⟨result, w.files, [], []⟩

namespace World

/-- The world after an effect. -/
def after {α : Type} (w : World) (e : Effect α) : World :=
  { w with files := e.files, calls := w.calls ++ e.calls, log := w.log ++ e.lines }

/-- The world with other reasons why temporary directories cannot be made and
removed. -/
def withFaults (w : World) (make remove : Option String) : World :=
  { w with makeTempFault := make, removeTempFault := remove }

@[simp] theorem after_still {α : Type} (w : World) (result : Except Failure α) :
    w.after (.still result w) = w := by
  simp [after, Effect.still]

end World

namespace Action

variable {α β : Type} {w : World}

/-- An action has an effect, whether temporary directories can be made and removed or
not. -/
def HasEffect (a : Action α) (w : World) (e : Effect α) : Prop :=
  ∀ make remove,
    a.runIn (w.withFaults make remove) = (e.result, (w.withFaults make remove).after e)

namespace HasEffect

/-- An action that looks at the world and gives something without a change. -/
theorem of_still {a : Action α} {result : Except Failure α}
    (h : ∀ make remove,
      a.runIn (w.withFaults make remove) = (result, w.withFaults make remove)) :
    HasEffect a w (.still result w) := by
  intro make remove
  rw [h]
  exact congrArg (result, ·) (World.after_still (w.withFaults make remove) result).symm

theorem pure (x : α) (w : World) : HasEffect (pure x : Action α) w (.still (.ok x) w) :=
  of_still fun _ _ => rfl

theorem throw (f : Failure) (w : World) :
    HasEffect (throw f : Action α) w (.still (.error f) w) :=
  of_still fun _ _ => rfl

theorem write (level : Level) (logger message : String) (w : World) :
    HasEffect (write level logger message) w ⟨.ok (), w.files, [], [⟨level, logger, message⟩]⟩ := by
  intro make remove
  simp [World.after, World.withFaults]

theorem attempt {a : Action α} {e : Effect α} (h : HasEffect a w e) :
    HasEffect (attempt a) w { e with result := .ok e.result } := by
  intro make remove
  rw [runIn_attempt, h make remove]
  rfl

/-- The effects of two steps, one after the other. -/
theorem bind {a : Action α} {f : α → Action β} {x : α} {e : Effect α} {e' : Effect β}
    (ha : HasEffect a w e) (hx : e.result = .ok x) (hf : HasEffect (f x) (w.after e) e') :
    HasEffect (a >>= f) w { e' with calls := e.calls ++ e'.calls, lines := e.lines ++ e'.lines } := by
  intro make remove
  have hrun := ha make remove
  rw [hx] at hrun
  rw [runIn_bind_ok hrun]
  refine (hf make remove).trans ?_
  simp [World.after, World.withFaults]

theorem bind_still {a : Action α} {f : α → Action β} {x : α} {e : Effect β}
    (ha : HasEffect a w (.still (.ok x) w)) (hf : HasEffect (f x) w e) :
    HasEffect (a >>= f) w e :=
  ha.bind rfl (by rwa [World.after_still])

/-- What comes behind a look at the world, if temporary directories have no part in
it. -/
theorem get_bind {f : World → Action β} {e : Effect β}
    (h : ∀ make remove, f (w.withFaults make remove) = f w) (hf : HasEffect (f w) w e) :
    HasEffect ((MonadState.get : Action World) >>= f) w e := by
  intro make remove
  rw [runIn_bind_ok (runIn_get _), h]
  exact hf make remove

theorem bind_error {a : Action α} {f : α → Action β} {g : Failure} {e : Effect α}
    (ha : HasEffect a w e) (hg : e.result = .error g) :
    HasEffect (a >>= f) w { e with result := .error g } := by
  intro make remove
  have hrun := ha make remove
  rw [hg] at hrun
  exact runIn_bind_error hrun

end HasEffect

/-! ## Looking at the world -/

/-- An action that changes nothing. -/
def Looks (a : Action α) : Prop :=
  ∀ w, ∃ result, HasEffect a w (.still result w)

namespace Looks

theorem pure (x : α) : Looks (pure x : Action α) :=
  fun w => ⟨.ok x, .pure x w⟩

theorem throw (f : Failure) : Looks (throw f : Action α) :=
  fun w => ⟨.error f, .throw f w⟩

theorem attempt {a : Action α} (ha : Looks a) : Looks (attempt a) := by
  intro w
  obtain ⟨result, h⟩ := ha w
  exact ⟨.ok result, h.attempt⟩

theorem bind {a : Action α} {f : α → Action β} (ha : Looks a) (hf : ∀ x, Looks (f x)) :
    Looks (a >>= f) := by
  intro w
  obtain ⟨result, h⟩ := ha w
  cases result with
  | error g => exact ⟨.error g, h.bind_error rfl⟩
  | ok x =>
    obtain ⟨result, hx⟩ := hf x w
    exact ⟨result, h.bind_still hx⟩

theorem readFile (p : Path) : Looks (readFile p) :=
  fun w => ⟨w.contents p, .of_still fun _ _ => runIn_readFile p _⟩

end Looks

end Action

end ModBuild
