import ModBuild.Cli.Report
import ModBuild.Proofs.World.Failing

/-!
# How a resolution fails

A failure of Git or of the file system is answered with one that is reported.  So is every
other failure of a resolution, but for one: a scalar of the descriptor may have no value for
another reason than that it is out of range (`Request.resolve_failed`).
-/

namespace ModBuild

open ModBuild.Action

theorem Failure.OfPath.isOfSource {null : Bool} {f : Failure} (h : f.OfPath null) :
    f.isOfSource = true ∨ f = .nullInPath := by
  rcases h with ⟨cause, rfl⟩ | ⟨rfl, -⟩
  · exact Or.inl rfl
  · exact Or.inr rfl

/-! ## Git -/

namespace Git

theorem nextRun_failsOnly {P : Failure → Prop} : FailsOnly P nextRun := by
  rintro w f w' h
  rw [nextRun, runIn_bind_ok (runIn_get w)] at h
  split at h <;> cases h

theorem leave_failsOnly (target : Path) (written : List (List String × Node)) :
    FailsOnly (Failure.OfPath target.hasNull) (leave target written) := by
  unfold leave
  split
  · exact (ensureDirectories_failsOnly target).bind fun _ =>
      (locate_failsOnly target).bind fun l => .get_bind fun w => .setFiles _
  · exact .pure _

theorem run_failsOnly (arguments : List String) (seconds : Int) (target : Option Path) :
    FailsOnly (fun f => f.isOfSource = true ∨ f = .nullInPath) (run arguments seconds target) := by
  refine (FailsOnly.write _ _ _).bind fun _ => (FailsOnly.record _).bind fun _ =>
    nextRun_failsOnly.bind fun r => ?_
  cases target with
  | none =>
    dsimp only
    split
    · exact .pure _
    · exact .throw (Or.inl rfl)
  | some p =>
    refine ((leave_failsOnly p _).mono fun f => Failure.OfPath.isOfSource).bind fun _ => ?_
    split
    · exact .pure _
    · exact .throw (Or.inl rfl)

theorem clone_failsOnly (url branch : String) (target : Path) (shallow : Bool) (seconds : Int) :
    FailsOnly (fun f => f.isOfSource = true ∨ f = .nullInPath)
      (clone url branch target shallow seconds) := by
  refine (FailsOnly.write _ _ _).bind fun _ => (run_failsOnly _ _ _).attempt_bind
    (fun _ => .pure _) fun f hf => ?_
  cases f with
  | git fault =>
    exact ((clear_failsOnly target).mono fun f => Failure.OfPath.isOfSource).bind fun _ =>
      .throw (Or.inl rfl)
  | _ => exact .throw hf

theorem revision_failsOnly (tree : Path) (seconds : Int) :
    FailsOnly (fun f => f.isOfSource = true ∨ f = .nullInPath) (revision tree seconds) := by
  refine (run_failsOnly _ _ _).bind fun text => ?_
  dsimp only
  split
  · exact .throw (Or.inl rfl)
  · exact .pure _

end Git

/-! ## The version -/

namespace Version

theorem readLine_failsOnly (file : Path) (start : String) :
    FailsOnly Failure.IsReported (readLine file start) := by
  refine (readFile_failsOnly file).attempt_bind (fun octets => ?_) fun f hf => ?_
  · dsimp only
    split
    · exact .throw rfl
    · split
      · exact .pure _
      · exact .throw rfl
  · rcases hf with ⟨cause, rfl⟩ | ⟨rfl, -⟩
    · exact .throw rfl
    · exact .throw rfl

theorem ofTree_failsOnly (settings : Settings) (tree : Path) (seconds : Int) :
    FailsOnly Failure.IsReported (ofTree (Git.control seconds) settings tree) := by
  refine (readLine_failsOnly _ _).bind fun line => (Git.revision_failsOnly tree _).attempt_bind
    (fun _ => (FailsOnly.write _ _ _).bind fun _ => .pure _) fun f hf => ?_
  rcases hf with hsource | rfl
  · refine .throw ?_
    rw [if_pos hsource]
    rfl
  · exact .throw rfl

theorem ofClone_failsOnly (settings : Settings) (branch : String) (tree : Path) (seconds : Int) :
    FailsOnly Failure.IsReported (ofClone (Git.control seconds) settings branch tree) := by
  refine (FailsOnly.write _ _ _).bind fun _ => (Git.clone_failsOnly _ _ _ _ _).attempt_bind
    (fun _ => ofTree_failsOnly settings tree seconds) fun f hf => ?_
  rcases hf with hsource | rfl
  · refine .throw ?_
    rw [if_pos hsource]
    rfl
  · exact .throw rfl

theorem resolve_failsOnly (settings : Settings) (workingDir : Option Path) (core : Core)
    (variantKey : String) (seconds : Int) :
    FailsOnly Failure.IsReported
      (resolve (Git.control seconds) settings workingDir core variantKey) := by
  unfold resolve
  split
  · split
    · exact .get_bind fun w => (FailsOnly.write _ _ _).bind fun _ => ofTree_failsOnly _ _ _
    · exact withTemporary_failsOnly (fun tree => ofClone_failsOnly _ _ tree _)
        (fun _ => rfl) fun _ _ => rfl
  · exact .pure _

end Version

/-! ## The resolution -/

theorem Artifact.locate_failsOnly (settings : Settings) (workingDir : Option Path) (core : Core)
    (variantKey version : String) :
    FailsOnly Failure.IsReported
      (Artifact.locate settings workingDir core variantKey version) := by
  unfold Artifact.locate
  split
  · exact .pure _
  · refine .get_bind fun w => ?_
    dsimp only
    split
    · exact (FailsOnly.write _ _ _).bind fun _ => .pure _
    · exact .throw rfl

theorem Resolution.ofDescriptor_failsOnly (target : Target) (d : Descriptor) (seconds : Int) :
    FailsOnly Failure.IsReported (ofDescriptor (Git.control seconds) target d) := by
  refine (FailsOnly.write _ _ _).bind fun _ => (Version.resolve_failsOnly _ _ _ _ _).bind
    fun version => (Artifact.locate_failsOnly _ _ _ _ _).bind fun artifact => ?_
  split
  · next cause _ =>
    refine .throw ?_
    cases cause <;> rfl
  · exact (FailsOnly.write _ _ _).bind fun _ => .pure _

/-- A scalar of a descriptor has no value, and not only because it is out of range. -/
def Failure.IsScalar (f : Failure) : Prop :=
  ∃ fault, f = .scalar fault ∧ fault.kind ≠ .value

theorem Descriptor.ofOctets_fails {p : Path} {octets : List UInt8} {f : Failure}
    (h : ofOctets p octets = .error f) : f.IsReported ∨ f.IsScalar := by
  rw [ofOctets] at h
  split at h
  · cases h
    exact Or.inl rfl
  · rw [ofText] at h
    split at h
    · cases h
      exact Or.inl rfl
    · next fault _ =>
      cases h
      by_cases hvalue : fault.kind = .value
      · refine Or.inl ?_
        simp [Failure.IsReported, Failure.kind, hvalue, Failure.Kind.isReported]
      · exact Or.inr ⟨fault, rfl, hvalue⟩
    · next document _ =>
      cases hd : ofValue document with
      | ok d =>
        rw [hd] at h
        cases h
      | error fault =>
        rw [hd] at h
        cases h
        exact Or.inl rfl

theorem Descriptor.load_failsOnly (p : Path) :
    FailsOnly (fun f => f.IsReported ∨ f.IsScalar) (load p) := by
  refine (readFile_failsOnly p).attempt_bind
    (fun octets => .ofExcept fun f => ofOctets_fails) fun f hf => ?_
  rcases hf with ⟨cause, rfl⟩ | ⟨rfl, -⟩
  · cases cause <;> exact .throw (Or.inl rfl)
  · exact .throw (Or.inl rfl)

/-- A resolution fails in a way that is reported, unless a scalar of the descriptor has no
value. -/
theorem Cli.Request.resolve_failed {r : Request} {environment : List (String × String)}
    {w w' : World} {f : Failure} (h : (r.resolve environment).runIn w = (.error f, w')) :
    f.IsReported ∨
      f.IsScalar ∧ ((Descriptor.load (.ofString r.descriptor)).runIn w).1 = .error f := by
  unfold Request.resolve at h
  split at h
  · cases h
    exact Or.inl rfl
  · dsimp only at h
    rw [runIn_bind] at h
    rcases hload : (Descriptor.load (.ofString r.descriptor)).runIn w with ⟨g | d, v⟩
    · rw [hload] at h
      cases h
      exact (Descriptor.load_failsOnly _ _ _ _ hload).imp_right fun hscalar => ⟨hscalar, rfl⟩
    · rw [hload] at h
      exact Or.inl (Resolution.ofDescriptor_failsOnly _ _ _ _ _ _ h)

end ModBuild
