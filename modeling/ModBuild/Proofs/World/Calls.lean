import Mathlib.Data.List.Basic
import ModBuild.Proofs.Files.Temporary
import ModBuild.Proofs.World.Effect

/-!
# What is asked of the outside

The calls of an action are what it adds to the record of the world.  Some actions make the same
calls however they end (`Calls`).  Others break off at a failure, and then they have made the first
ones of their calls only (`CallsUpTo`), which is closed under one step after the other.
-/

namespace ModBuild

/-- Some calls have been made since a world. -/
def World.Called (w : World) (calls : List Call) (w' : World) : Prop :=
  w'.calls = w.calls ++ calls

namespace Action

variable {α β : Type} {a : Action α} {w : World} {calls calls' : List Call}

theorem ignoresFiles_called (w : World) (calls : List Call) :
    Preserves.IgnoresFiles (w.Called calls) :=
  fun _ _ h => h

/-! ## The same calls however it ends -/

/-- An action makes these calls. -/
def Calls (a : Action α) (w : World) (calls : List Call) : Prop :=
  w.Called calls (a.runIn w).2

namespace Calls

theorem of_preserves (h : Preserves (w.Called []) a) : Calls a w [] :=
  h w (List.append_nil _).symm

theorem of_looks (h : Looks a) (w : World) : Calls a w [] := by
  obtain ⟨result, heffect⟩ := h w
  have hrun := heffect w.makeTempFault w.removeTempFault
  exact congrArg (fun r => r.2.calls) hrun

end Calls

/-! ## Calls up to a failure -/

/-- An action makes the first ones of these calls, and all of them if it gives a value. -/
def CallsUpTo (a : Action α) (w : World) (calls : List Call) : Prop :=
  ∃ made, made <+: calls ∧ Calls a w made ∧ ∀ x, (a.runIn w).1 = .ok x → made = calls

namespace CallsUpTo

theorem of_calls (h : Calls a w calls) : CallsUpTo a w calls :=
  ⟨calls, List.prefix_refl _, h, fun _ _ => rfl⟩

theorem pure (x : α) (w : World) : CallsUpTo (pure x : Action α) w [] :=
  of_calls (.of_preserves (.pure x))

theorem throw (f : Failure) (w : World) (calls : List Call) :
    CallsUpTo (throw f : Action α) w calls :=
  ⟨[], List.nil_prefix, .of_preserves (.throw f), fun _ hx => by cases hx⟩

theorem write (level : Level) (logger message : String) (w : World) :
    CallsUpTo (write level logger message) w [] :=
  of_calls (List.append_nil _).symm

/-- If the first step fails, the second one makes no call. -/
theorem bind {f : α → Action β} (ha : CallsUpTo a w calls)
    (hf : ∀ x w', CallsUpTo (f x) w' calls') : CallsUpTo (a >>= f) w (calls ++ calls') := by
  obtain ⟨made, hprefix, hmade, hall⟩ := ha
  rw [Calls, World.Called] at hmade
  -- A value of the first step means that all its calls were made.
  rcases hrun : a.runIn w with ⟨e | x, w'⟩
  · have hbind : (a >>= f).runIn w = (.error e, w') := runIn_bind_error hrun
    rw [hrun] at hmade
    refine ⟨made, hprefix.trans (List.prefix_append _ _), ?_, fun y hy => ?_⟩
    · rw [Calls, World.Called, hbind]
      exact hmade
    · rw [hbind] at hy
      cases hy
  · have hbind : (a >>= f).runIn w = (f x).runIn w' := runIn_bind_ok hrun
    rw [hrun] at hmade hall
    obtain rfl : made = calls := hall x rfl
    obtain ⟨made', hprefix', hmade', hall'⟩ := hf x w'
    refine ⟨made ++ made', (List.prefix_append_right_inj made).2 hprefix', ?_, fun y hy => ?_⟩
    · rw [Calls, World.Called, hbind]
      exact hmade'.trans (by rw [hmade, List.append_assoc])
    · rw [hbind] at hy
      rw [hall' y hy]

/-- What comes behind a look at the world. -/
theorem get_bind {f : World → Action β} (h : CallsUpTo (f w) w calls) :
    CallsUpTo ((get : Action World) >>= f) w calls :=
  h

/-- A temporary directory adds nothing to the calls of what is done in it. -/
theorem withTemporary {logger : String} {body : Path → Action α}
    (hbody : ∀ w', CallsUpTo (body (.ofLocation w.nextTemporary)) w' calls) :
    CallsUpTo (withTemporary logger body) w calls := by
  by_cases hmake : w.MakesTemporary
  · obtain ⟨made, hprefix, hmade, hall⟩ := hbody w.withNextTemporary
    rw [Calls, World.Called] at hmade
    have hrun := runIn_withTemporary logger body hmake
    generalize (body (.ofLocation w.nextTemporary)).runIn w.withNextTemporary = r
      at hmade hall hrun
    obtain ⟨outcome, v⟩ := r
    refine ⟨made, hprefix, ?_, fun x hx => hall x ?_⟩
    · rw [Calls, World.Called, hrun, afterTemporary]
      split
      · exact hmade
      · cases outcome with
        | ok x => exact hmade
        | error f => exact hmade
    · rw [hrun, afterTemporary] at hx
      split at hx
      · exact hx
      · cases outcome with
        | ok x => cases hx
        | error f => cases hx
  · obtain ⟨cause, hrun⟩ := runIn_withTemporary_of_not logger body hmake
    refine ⟨[], List.nil_prefix, ?_, fun x hx => ?_⟩
    · rw [Calls, World.Called, hrun, List.append_nil]
    · rw [hrun] at hx
      cases hx

end CallsUpTo

end Action

end ModBuild
