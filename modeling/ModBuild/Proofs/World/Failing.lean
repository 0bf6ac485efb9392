import ModBuild.Files.Temporary
import ModBuild.Proofs.Files.Access

/-!
# How actions fail

`FailsOnly` says which failures can come of an action, in whatever world it is run.  It is
closed under the ways to make an action, so it is shown step by step.  A failure that an
attempt catches can be answered with another one (`FailsOnly.attempt_bind`).

Access to a path fails for a reason of the file system, or because the path holds the
character U+0000 (`Failure.OfPath`).
-/

namespace ModBuild

namespace Failure

/-- A failure that is reported to the user. -/
def IsReported (f : Failure) : Prop :=
  f.kind.isReported = true

/-- A failure that is reported by the commands that write files. -/
def IsAnswered (f : Failure) : Prop :=
  f.IsReported ∨ ∃ cause, f = .os cause

/-- A reason of the file system, or a path that may hold the character U+0000. -/
def OfPath (null : Bool) (f : Failure) : Prop :=
  (∃ cause, f = .os cause) ∨ f = .nullInPath ∧ null = true

namespace OfPath

variable {null null' : Bool} {f : Failure}

theorem mono (h : null = true → null' = true) (hf : f.OfPath null) : f.OfPath null' :=
  hf.imp_right fun hnull => ⟨hnull.1, h hnull.2⟩

theorem isAnswered (h : f.OfPath null) : f.IsAnswered := by
  rcases h with ⟨cause, rfl⟩ | ⟨rfl, -⟩
  · exact Or.inr ⟨cause, rfl⟩
  · exact Or.inl rfl

end OfPath

end Failure

theorem Path.hasNull_of_prefix {root : Root} {names more : List String} (h : names <+: more)
    (hnull : Path.hasNull ⟨root, names⟩ = true) : Path.hasNull ⟨root, more⟩ = true := by
  rw [hasNull, List.any_eq_true] at hnull ⊢
  obtain ⟨s, hs, hcontains⟩ := hnull
  exact ⟨s, h.subset hs, hcontains⟩

namespace Action

variable {α β : Type} {P Q : Failure → Prop}

/-- An action can only fail in some ways. -/
def FailsOnly (P : Failure → Prop) (a : Action α) : Prop :=
  ∀ w f w', a.runIn w = (.error f, w') → P f

namespace FailsOnly

theorem pure (a : α) : FailsOnly P (pure a : Action α) := by
  rintro w f w' ⟨⟩

theorem throw {f : Failure} (h : P f) : FailsOnly P (throw f : Action α) := by
  rintro w _ w' ⟨⟩
  exact h

theorem ofExcept {r : Except Failure α} (h : ∀ f, r = .error f → P f) :
    FailsOnly P (ofExcept r) := by
  intro w f w' hr
  rw [runIn_ofExcept] at hr
  cases hr
  exact h f rfl

theorem write (level : Level) (logger message : String) :
    FailsOnly P (write level logger message) := by
  rintro w f w' ⟨⟩

theorem record (c : Call) : FailsOnly P (record c) := by
  rintro w f w' ⟨⟩

theorem setFiles (files : FileTree) : FailsOnly P (setFiles files) := by
  rintro w f w' ⟨⟩

theorem modify (g : World → World) : FailsOnly P (modify g : Action Unit) := by
  rintro w f w' ⟨⟩

theorem any (a : Action α) : FailsOnly (fun _ => True) a :=
  fun _ _ _ _ => trivial

theorem mono {a : Action α} (ha : FailsOnly P a) (h : ∀ f, P f → Q f) : FailsOnly Q a :=
  fun w f w' hf => h f (ha w f w' hf)

theorem bind {a : Action α} {k : α → Action β} (ha : FailsOnly P a) (hk : ∀ x, FailsOnly P (k x)) :
    FailsOnly P (a >>= k) := by
  intro w f w' h
  rw [runIn_bind] at h
  split at h
  · next x v _ => exact hk x v f w' h
  · next g v hg =>
    cases h
    exact ha w f w' hg

theorem get_bind {k : World → Action β} (hk : ∀ w, FailsOnly P (k w)) :
    FailsOnly P ((MonadState.get : Action World) >>= k) :=
  fun w f w' h => hk w w f w' h

/-- A failure that is caught is answered by what comes next. -/
theorem attempt_bind {a : Action α} {k : Except Failure α → Action β} (ha : FailsOnly P a)
    (hok : ∀ x, FailsOnly Q (k (.ok x))) (herror : ∀ f, P f → FailsOnly Q (k (.error f))) :
    FailsOnly Q (attempt a >>= k) := by
  intro w f w' h
  rw [runIn_bind_ok (runIn_attempt a w)] at h
  rcases hr : a.runIn w with ⟨g | x, v⟩
  · rw [hr] at h
    exact herror g (ha w g v hr) v f w' h
  · rw [hr] at h
    exact hok x v f w' h

end FailsOnly

/-! ## Access to files -/

theorem locate_failsOnly (p : Path) : FailsOnly (Failure.OfPath p.hasNull) (locate p) := by
  intro w f w' h
  rw [runIn_locate, World.locate] at h
  split at h
  · next hnull =>
    cases h
    exact Or.inr ⟨rfl, hnull⟩
  · split at h
    · cases h
    · cases h
      exact Or.inl ⟨_, rfl⟩
    · cases h
      exact Or.inl ⟨_, rfl⟩

theorem readFile_failsOnly (p : Path) : FailsOnly (Failure.OfPath p.hasNull) (readFile p) := by
  refine (locate_failsOnly p).bind fun l => .get_bind fun w => ?_
  split
  · exact .pure _
  · exact .throw (Or.inl ⟨_, rfl⟩)
  · exact .throw (Or.inl ⟨_, rfl⟩)

theorem contents_of_hasNull {p : Path} (h : p.hasNull = true) (w : World) :
    w.contents p = .error .nullInPath := by
  rw [World.contents, World.locate, if_pos h]

/-- Without the character U+0000 in the path, only the file system keeps a file from being
read. -/
theorem contents_eq_error {w : World} {p : Path} {f : Failure}
    (h : w.contents p = .error f) (hnull : p.hasNull = false) : ∃ cause, f = .os cause := by
  have hrun : (readFile p).runIn w = (.error f, w) := by rw [runIn_readFile, h]
  rcases readFile_failsOnly p w f w hrun with hos | ⟨-, htrue⟩
  · exact hos
  · rw [hnull] at htrue
    cases htrue

theorem writeFile_failsOnly (p : Path) (octets : List UInt8) :
    FailsOnly (Failure.OfPath p.hasNull) (writeFile p octets) := by
  refine (locate_failsOnly p).bind fun l => .get_bind fun w => ?_
  dsimp only
  split
  · exact .throw (Or.inl ⟨_, rfl⟩)
  · exact (FailsOnly.setFiles _).bind fun _ => .pure _

theorem removeFile_failsOnly (p : Path) : FailsOnly (Failure.OfPath p.hasNull) (removeFile p) := by
  refine (locate_failsOnly p).bind fun l => .get_bind fun w => ?_
  dsimp only
  split
  · exact .setFiles _
  · exact .throw (Or.inl ⟨_, rfl⟩)
  · exact .pure _

theorem append_failsOnly (l : Location) (octets : List UInt8) : FailsOnly P (append l octets) := by
  refine .get_bind fun w => ?_
  dsimp only
  split
  · exact .setFiles _
  · exact .pure _

theorem makeDirectory_failsOnly (p : Path) :
    FailsOnly (Failure.OfPath p.hasNull) (makeDirectory p) := by
  refine (locate_failsOnly p).bind fun l => .get_bind fun w => ?_
  dsimp only
  split
  · exact .throw (Or.inl ⟨_, rfl⟩)
  · exact .setFiles _

theorem isDirectory_or_throw_failsOnly (p : Path) {f : Failure} (h : P f) :
    FailsOnly P (do if (← get).isDirectory p then return () else throw f : Action Unit) := by
  refine .get_bind fun w => ?_
  split
  · exact .pure _
  · exact .throw h

theorem ensureDirectory_failsOnly (p : Path) :
    FailsOnly (Failure.OfPath p.hasNull) (ensureDirectory p) := by
  refine (makeDirectory_failsOnly p).attempt_bind (fun _ => .pure _) fun f hf => ?_
  rcases hf with ⟨cause, rfl⟩ | ⟨rfl, hnull⟩
  · exact isDirectory_or_throw_failsOnly p (Or.inl ⟨_, rfl⟩)
  · exact .throw (Or.inr ⟨rfl, hnull⟩)

/-- The names come the last first.  A name on the way is one of the path. -/
theorem ensureDirectoriesFrom_failsOnly (root : Root) (names : List String) :
    FailsOnly (Failure.OfPath (Path.hasNull ⟨root, names.reverse⟩))
      (ensureDirectoriesFrom root names) := by
  induction names with
  | nil => exact ensureDirectory_failsOnly _
  | cons s ss ih =>
    have hon : FailsOnly (Failure.OfPath (Path.hasNull ⟨root, (s :: ss).reverse⟩))
        (ensureDirectoriesFrom root ss) :=
      ih.mono fun f => Failure.OfPath.mono (Path.hasNull_of_prefix (by simp))
    refine (makeDirectory_failsOnly _).attempt_bind (fun _ => .pure _) fun f hf => ?_
    rcases hf with ⟨cause, rfl⟩ | ⟨rfl, hnull⟩
    · cases cause with
      | notFound _ => exact hon.bind fun _ => ensureDirectory_failsOnly _
      | _ => exact isDirectory_or_throw_failsOnly _ (Or.inl ⟨_, rfl⟩)
    · exact .throw (Or.inr ⟨rfl, hnull⟩)

theorem ensureDirectories_failsOnly (p : Path) :
    FailsOnly (Failure.OfPath p.hasNull) (ensureDirectories p) := by
  have h := ensureDirectoriesFrom_failsOnly p.root p.segments.reverse
  rwa [List.reverse_reverse] at h

theorem clear_failsOnly (p : Path) : FailsOnly (Failure.OfPath p.hasNull) (clear p) := by
  refine .get_bind fun w => ?_
  split
  · exact .pure _
  · exact .throw (Or.inl ⟨_, rfl⟩)
  · exact (locate_failsOnly p).bind fun l => .get_bind fun v => .setFiles _

theorem copyFile_failsOnly (source target : Path) :
    FailsOnly (Failure.OfPath (source.hasNull || target.hasNull)) (copyFile source target) := by
  refine .get_bind fun w => ?_
  split
  · next hnull => exact .throw (Or.inr ⟨rfl, hnull⟩)
  · split
    · exact .throw (Or.inl ⟨_, rfl⟩)
    · refine ((readFile_failsOnly source).mono fun f => .mono fun h => by simp [h]).bind fun _ =>
        ((writeFile_failsOnly target _).mono fun f => .mono fun h => by simp [h]).bind fun _ =>
          .pure _

/-- What fails is the action in the directory, or the directory cannot be made or removed. -/
theorem withTemporary_failsOnly {logger : String} {body : Path → Action α}
    (hbody : ∀ p, FailsOnly P (body p)) (hmake : ∀ cause, P (.tempNotMade cause))
    (hremove : ∀ p cause, P (.tempNotRemoved p cause)) :
    FailsOnly P (withTemporary logger body) := by
  refine (FailsOnly.any _).attempt_bind (fun l => ?_) fun cause _ => .throw (hmake cause)
  refine (hbody (.ofLocation l)).attempt_bind (fun x => ?_) fun f hf => ?_
  · exact (FailsOnly.any _).attempt_bind (fun _ => .pure _) fun cause _ => .throw (hremove _ _)
  · exact (FailsOnly.any _).attempt_bind (fun _ => .throw hf)
      fun cause _ => (FailsOnly.write _ _ _).bind fun _ => .throw hf

end Action

end ModBuild
