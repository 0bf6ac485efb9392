import ModBuild.World

/-!
# Running actions

What a run of an action is, for every way to make one.  The world of a run is
passed on from step to step, also behind a failure.

Much is said of a run by a condition on the world that every step preserves.
`Preserves` is closed under all the ways to make an action, so such a condition
is shown step by step.

A run has a *stage*: the places that it starts from and what the outside has in
store for it.  No step changes the stage.
-/

namespace ModBuild

/-- What a run takes place on. -/
structure World.Stage where
  /-- The working directory. -/
  here : Location
  /-- Where temporary directories are made. -/
  tempRoot : Location
  /-- Why no temporary directory can be made. -/
  makeTempFault : Option String
  /-- Why no temporary directory can be removed. -/
  removeTempFault : Option String
  /-- What the server will answer. -/
  answer : Http.Answer

/-- The stage of a world. -/
def World.stage (w : World) : Stage :=
  ⟨w.here, w.tempRoot, w.makeTempFault, w.removeTempFault, w.answer⟩

/-- The world before a run that starts at the top of these files, without Git and network. -/
def World.offline (files : FileTree) : World where
  files := files
  here := []
  tempRoot := []
  makeTempFault := none
  removeTempFault := none
  gitRuns := []
  answer := .failed (.failed "there is no network")
  closes := 0
  calls := []
  log := []

namespace Action

variable {α β : Type}

/-! ## Runs -/

@[simp] theorem runIn_pure (a : α) (w : World) : (pure a : Action α).runIn w = (.ok a, w) := rfl

@[simp] theorem runIn_throw (f : Failure) (w : World) :
    (throw f : Action α).runIn w = (.error f, w) := rfl

@[simp] theorem runIn_get (w : World) : (get : Action World).runIn w = (.ok w, w) := rfl

@[simp] theorem runIn_set (w' w : World) : (set w' : Action PUnit).runIn w = (.ok ⟨⟩, w') := rfl

@[simp] theorem runIn_setFiles (files : FileTree) (w : World) :
    (setFiles files).runIn w = (.ok (), { w with files }) := rfl

@[simp] theorem runIn_write (level : Level) (logger message : String) (w : World) :
    (write level logger message).runIn w =
      (.ok (), { w with log := w.log ++ [⟨level, logger, message⟩] }) := rfl

@[simp] theorem runIn_record (c : Call) (w : World) :
    (record c).runIn w = (.ok (), { w with calls := w.calls ++ [c] }) := rfl

@[simp] theorem runIn_attempt (a : Action α) (w : World) :
    (attempt a).runIn w = (.ok (a.runIn w).1, (a.runIn w).2) := rfl

@[simp] theorem runIn_ofExcept (r : Except Failure α) (w : World) :
    (ofExcept r).runIn w = (r, w) := by
  cases r <;> rfl

theorem runIn_bind (a : Action α) (f : α → Action β) (w : World) :
    (a >>= f).runIn w =
      match a.runIn w with
      | (.ok x, w') => (f x).runIn w'
      | (.error e, w') => (.error e, w') := by
  change StateT.run (ExceptT.bindCont f (StateT.run a.run w).1) (StateT.run a.run w).2 = _
  rw [show a.runIn w = ((StateT.run a.run w).1, (StateT.run a.run w).2) from rfl]
  cases (StateT.run a.run w).1 <;> rfl

/-- A step that gives a value is followed by the next one. -/
theorem runIn_bind_ok {a : Action α} {f : α → Action β} {w w' : World} {x : α}
    (h : a.runIn w = (.ok x, w')) : (a >>= f).runIn w = (f x).runIn w' := by
  rw [runIn_bind, h]

/-- A step that fails ends the run. -/
theorem runIn_bind_error {a : Action α} {f : α → Action β} {w w' : World} {e : Failure}
    (h : a.runIn w = (.error e, w')) : (a >>= f).runIn w = (.error e, w') := by
  rw [runIn_bind, h]

/-- A run that gives a value has run its first step. -/
theorem of_runIn_bind_ok {a : Action α} {f : α → Action β} {w w'' : World} {y : β}
    (h : (a >>= f).runIn w = (.ok y, w'')) :
    ∃ x w', a.runIn w = (.ok x, w') ∧ (f x).runIn w' = (.ok y, w'') := by
  rw [runIn_bind] at h
  split at h
  · next x w' ha => exact ⟨x, w', ha, h⟩
  · cases h

/-- Whether a run gives a value, and the value and the world behind it pass a check. -/
def gives (a : Action α) (w : World) (check : α → World → Bool) : Bool :=
  match a.runIn w with
  | (.ok x, w') => check x w'
  | (.error _, _) => false

theorem gives_iff {a : Action α} {w : World} {check : α → World → Bool} :
    a.gives w check = true ↔ ∃ x w', a.runIn w = (.ok x, w') ∧ check x w' = true := by
  rw [gives]
  rcases a.runIn w with ⟨f | x, w'⟩
  · simp
  · constructor
    · exact fun h => ⟨x, w', rfl, h⟩
    · rintro ⟨_, _, ⟨⟩, h⟩
      exact h

/-! ## Conditions that an action preserves -/

/-- A condition on the world that holds before a run holds after it. -/
def Preserves (I : World → Prop) (a : Action α) : Prop :=
  ∀ w, I w → I (a.runIn w).2

namespace Preserves

variable {I : World → Prop}

theorem pure (a : α) : Preserves I (pure a : Action α) := fun _ h => h

theorem throw (f : Failure) : Preserves I (throw f : Action α) := fun _ h => h

theorem ofExcept (r : Except Failure α) : Preserves I (ofExcept r) := by
  intro w h
  rw [runIn_ofExcept]
  exact h

/-- What holds behind a first step holds behind the next one if that preserves it. -/
theorem behind {a : Action α} {f : α → Action β} {w : World} (ha : I (a.runIn w).2)
    (hf : ∀ x, Preserves I (f x)) : I ((a >>= f).runIn w).2 := by
  rw [runIn_bind]
  rcases hr : a.runIn w with ⟨x | x, w'⟩
  · rw [hr] at ha
    exact ha
  · rw [hr] at ha
    exact hf x w' ha

theorem bind {a : Action α} {f : α → Action β} (ha : Preserves I a)
    (hf : ∀ x, Preserves I (f x)) : Preserves I (a >>= f) :=
  fun w h => behind (ha w h) hf

/-- What the world is known to be may be used for what comes next. -/
theorem get_bind {f : World → Action β} (hf : ∀ w, I w → I ((f w).runIn w).2) :
    Preserves I ((MonadState.get : Action World) >>= f) :=
  fun w h => hf w h

theorem attempt {a : Action α} (ha : Preserves I a) : Preserves I (attempt a) :=
  fun w h => ha w h

/-- The files have no part in a condition. -/
def IgnoresFiles (I : World → Prop) : Prop :=
  ∀ w files, I w → I { w with files }

theorem setFiles (h : IgnoresFiles I) (files : FileTree) : Preserves I (setFiles files) :=
  fun w hw => h w files hw

/-- The log has no part in a condition. -/
def IgnoresLog (I : World → Prop) : Prop :=
  ∀ w log, I w → I { w with log }

theorem write_ignores (h : IgnoresLog I) (level : Level) (logger message : String) :
    Preserves I (write level logger message) :=
  fun w hw => h w _ hw

/-! What is said of the files and the stage only is not changed by the log or by a
record. -/

variable {P : FileTree → World.Stage → Prop}

theorem ignoresLog : IgnoresLog fun w => P w.files w.stage :=
  fun _ _ h => h

theorem write (level : Level) (logger message : String) :
    Preserves (fun w => P w.files w.stage) (write level logger message) :=
  write_ignores ignoresLog level logger message

theorem record (c : Call) : Preserves (fun w => P w.files w.stage) (record c) :=
  fun _ h => h

end Preserves

end Action

end ModBuild
