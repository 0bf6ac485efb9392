import ModBuild.Proofs.Files.Temporary
import ModBuild.Proofs.World.Effect
import ModBuild.Version.Resolve

/-!
# How the version is found

A version that is named is taken as it is.  The newest version costs at most one
question for a revision, of the tree that it is read off.  If this tree is a clone,
it is made in a fresh directory before anything is asked of it, and the files are
afterwards as they were.  Only a directory that cannot be removed stays, and it
shows in the outcome or in a warning (`resolve_modes`).
-/

namespace ModBuild

/-- The warnings of a log. -/
def warnings (log : List LogLine) : List LogLine :=
  log.filter fun line => line.level = .warning

@[simp] theorem warnings_append (log lines : List LogLine) :
    warnings (log ++ lines) = warnings log ++ warnings lines :=
  List.filter_append ..

namespace Version

open ModBuild.Action

variable {w : World}

/-! ## Reading a tree -/

theorem readLine_looks (file : Path) (start : String) : Looks (readLine file start) := by
  refine (Looks.readFile file).attempt.bind fun outcome => ?_
  split
  · exact .throw _
  · exact .throw _
  · split
    · exact .throw _
    · split
      · exact .pure _
      · exact .throw _

/-- What a scripted source control has to say of a tree.  If the version line cannot be
read, it is not asked. -/
def Answers (s : SourceScript) (tree : Path) (outcome : Except Failure String)
    (calls : List Call) : Prop :=
  ((∃ f, outcome = .error f) ∧ calls = []) ∨
    calls = [.revision tree] ∧
      match s.revisionFailure with
      | some f => outcome = .error (if f.isOfSource then .revisionUnknown tree f else f)
      | none => ∃ line, outcome = .ok (line ++ "-" ++ s.revision)

theorem revision_effect (s : SourceScript) (tree : Path) (w : World) :
    HasEffect ((SourceControl.scripted s).revision tree) w
      ⟨match s.revisionFailure with
        | some f => .error f
        | none => .ok s.revision,
      w.files, [.revision tree], []⟩ := by
  intro make remove
  dsimp only [SourceControl.scripted]
  rw [runIn_bind_ok (runIn_record _ _)]
  cases s.revisionFailure <;> simp [World.after, World.withFaults]

theorem ofTree_effect (s : SourceScript) (settings : Settings) (tree : Path) (w : World) :
    ∃ e, HasEffect (ofTree (.scripted s) settings tree) w e ∧ e.files = w.files ∧
      warnings e.lines = [] ∧ Answers s tree e.result e.calls := by
  obtain ⟨result, hread⟩ :=
    readLine_looks (tree / .ofString settings.buildFile) settings.versionPrefix w
  cases result with
  | error f => exact ⟨_, hread.bind_error rfl, rfl, rfl, Or.inl ⟨⟨f, rfl⟩, rfl⟩⟩
  | ok line =>
    have hask := (revision_effect s tree w).attempt
    cases hs : s.revisionFailure with
    | some f =>
      rw [hs] at hask
      refine ⟨_, hread.bind_still (hask.bind rfl (.throw _ _)), rfl, rfl, Or.inr ⟨rfl, ?_⟩⟩
      rw [hs]
      rfl
    | none =>
      rw [hs] at hask
      refine ⟨_, hread.bind_still (hask.bind rfl (HasEffect.bind (.write _ _ _ _) rfl (.pure _ _))),
        rfl, rfl, Or.inr ⟨rfl, ?_⟩⟩
      rw [hs]
      exact ⟨line, rfl⟩

/-! ## Reading a fresh clone -/

theorem clone_effect (s : SourceScript) (url branch : String) {tree : Path} (shallow : Bool)
    {l : Location} (hl : w.locate tree = .ok l) :
    HasEffect ((SourceControl.scripted s).clone url branch tree shallow) w
      ⟨match s.cloneFailure with
        | some f => .error f
        | none => .ok (),
      s.written.foldl (fun files e => files.plant l e.1 e.2) w.files,
      [.clone url branch tree shallow], []⟩ := by
  intro make remove
  dsimp only [SourceControl.scripted]
  rw [runIn_bind_ok (runIn_record _ _), runIn_bind_ok (runIn_get _)]
  have hl' : World.locate { w.withFaults make remove with
      calls := (w.withFaults make remove).calls ++ [.clone url branch tree shallow] } tree =
      .ok l := hl
  rw [hl']
  dsimp only
  rw [runIn_bind_ok (runIn_setFiles _ _)]
  cases s.cloneFailure <;> simp [World.after, World.withFaults]

/-- What comes of a clone and of the tree that it makes. -/
def AnswersClone (s : SourceScript) (url branch : String) (tree : Path)
    (outcome : Except Failure String) (calls : List Call) : Prop :=
  match s.cloneFailure with
  | some f => outcome = .error (if f.isOfSource then .notCloned url branch f else f) ∧ calls = []
  | none => Answers s tree outcome calls

theorem ofClone_effect (s : SourceScript) (settings : Settings) (branch : String)
    {t : FileTree} {l : Location} (hl : w.locate (.ofLocation l) = .ok l)
    (ht : w.files.remove l = t) :
    ∃ e calls, HasEffect (ofClone (.scripted s) settings branch (.ofLocation l)) w e ∧
      e.files.remove l = t ∧ warnings e.lines = [] ∧
      e.calls = .clone settings.repository branch (.ofLocation l) true :: calls ∧
      AnswersClone s settings.repository branch (.ofLocation l) e.result calls := by
  let said := "Resolving latest core version from " ++ settings.repository ++ " at " ++ branch
  let first : Effect Unit := ⟨.ok (), w.files, [], [⟨.debug, logger, said⟩]⟩
  have hwrite : HasEffect (write .debug logger said) w first := .write _ _ _ _
  have hlocate : (w.after first).locate (.ofLocation l) = .ok l := hl
  have hclone := (clone_effect s settings.repository branch true hlocate).attempt
  have hfiles : (s.written.foldl (fun files e => files.plant l e.1 e.2) w.files).remove l = t :=
    (FileTree.foldl_plant_remove _ _).trans ht
  unfold AnswersClone
  cases hs : s.cloneFailure with
  | some f =>
    rw [hs] at hclone
    exact ⟨_, [], hwrite.bind rfl (hclone.bind rfl (.throw _ _)), hfiles, rfl, rfl, rfl, rfl⟩
  | none =>
    rw [hs] at hclone
    obtain ⟨e, he, hsame, hquiet, hanswers⟩ := ofTree_effect s settings (.ofLocation l) _
    refine ⟨_, e.calls, hwrite.bind rfl (hclone.bind rfl he), ?_, hquiet, rfl, hanswers⟩
    dsimp only
    rw [hsame]
    exact hfiles

/-! ## The temporary directory -/

/-- What comes of an action in a temporary directory, when the directory can be removed
and when it cannot. -/
theorem withTemporary_effect {body : Path → Action String} {e : Effect String}
    (hmake : w.MakesTemporary)
    (hbody : HasEffect (body (.ofLocation w.nextTemporary)) w.withNextTemporary e)
    (hfiles : e.files.remove w.nextTemporary = w.files) (remove : Option String) :
    ∃ r w', (withTemporary logger body).runIn { w with removeTempFault := remove } = (r, w') ∧
      w'.calls = w.calls ++ e.calls ∧
      match remove with
      | none => r = e.result ∧ w'.files = w.files ∧ w'.log = w.log ++ e.lines
      | some message =>
        let failure := Failure.tempNotRemoved (.ofLocation w.nextTemporary) (.os (.other message))
        match e.result with
        | .ok _ => r = .error failure ∧ w'.log = w.log ++ e.lines
        | .error f => r = .error f ∧
          w'.log = w.log ++ e.lines ++ [⟨.warning, logger, failure.message⟩] := by
  have hmake' : World.MakesTemporary { w with removeTempFault := remove } := hmake
  have hrun : (withTemporary logger body).runIn { w with removeTempFault := remove } =
      afterTemporary logger w.nextTemporary
        (e.result, (w.withNextTemporary.withFaults w.makeTempFault remove).after e) :=
    (runIn_withTemporary logger body hmake').trans
      (congrArg (afterTemporary logger w.nextTemporary) (hbody w.makeTempFault remove))
  rw [hrun]
  obtain ⟨outcome, files, calls, lines⟩ := e
  cases remove with
  | none => exact ⟨_, _, rfl, rfl, rfl, hfiles, rfl⟩
  | some message =>
    cases outcome with
    | ok version => exact ⟨_, _, rfl, rfl, rfl, rfl⟩
    | error f => exact ⟨_, _, rfl, rfl, rfl, rfl⟩

/-! ## The three ways to a version -/

section Ways

variable {source : SourceControl} {settings : Settings} {workingDir : Option Path} {core : Core}
variable {variantKey : String}

theorem resolve_of_pinned (h : core.isLatest = false) :
    resolve source settings workingDir core variantKey = pure core.version := by
  simp only [resolve, h, Bool.false_eq_true, if_false]

theorem resolve_of_checkout (h : core.isLatest = true) {path : String}
    (hpath : core.checkout? = some path) :
    resolve source settings workingDir core variantKey = (do
      let tree := baseOf workingDir (← get) / .ofString path
      write .debug logger ("Resolving latest core version from local tree " ++ tree.toString)
      ofTree source settings tree) := by
  simp only [resolve, h, hpath, if_true]

theorem resolve_of_clone (h : core.isLatest = true) (hclone : core.checkout? = none) :
    resolve source settings workingDir core variantKey =
      withTemporary logger (ofClone source settings variantKey) := by
  simp only [resolve, h, hclone, if_true]

end Ways

/-- What comes of the version of a clone, when the clone can be removed and when it
cannot. -/
theorem withTemporary_ofClone (s : SourceScript) (settings : Settings) (branch : String)
    (hw : w.files.WellFormed) (hmake : w.MakesTemporary) :
    ∃ outcome calls,
      AnswersClone s settings.repository branch (.ofLocation w.nextTemporary) outcome calls ∧
      ∀ remove, ∃ r w', (withTemporary logger (ofClone (.scripted s) settings branch)).runIn
          { w with removeTempFault := remove } = (r, w') ∧
        w'.calls = w.calls ++
          .clone settings.repository branch (.ofLocation w.nextTemporary) true :: calls ∧
        match remove with
        | none => r = outcome ∧ w'.files = w.files ∧ warnings w'.log = warnings w.log
        | some message =>
          let failure := Failure.tempNotRemoved (.ofLocation w.nextTemporary) (.os (.other message))
          match outcome with
          | .ok _ => r = .error failure ∧ warnings w'.log = warnings w.log
          | .error f => r = .error f ∧
            warnings w'.log = warnings w.log ++ [⟨.warning, logger, failure.message⟩] := by
  obtain ⟨-, -, hstart⟩ := hmake.next hw
  obtain ⟨e, calls, he, hfiles, hquiet, hcalls, hanswers⟩ :=
    ofClone_effect s settings branch (hmake.locate_next hw) hstart
  refine ⟨e.result, calls, hanswers, fun remove => ?_⟩
  obtain ⟨r, w', hrun, hw', h⟩ := withTemporary_effect hmake he hfiles remove
  refine ⟨r, w', hrun, by rw [hw', hcalls], ?_⟩
  cases remove with
  | none =>
    obtain ⟨hr, hsame, hlog⟩ := h
    exact ⟨hr, hsame, by simp [hlog, hquiet]⟩
  | some message =>
    dsimp only at h ⊢
    cases hresult : e.result with
    | ok version =>
      rw [hresult] at h
      exact ⟨h.1, by simp [h.2, hquiet]⟩
    | error f =>
      rw [hresult] at h
      refine ⟨h.1, ?_⟩
      rw [h.2, warnings_append, warnings_append, hquiet, List.append_nil]
      rfl

/-- How the version is found with a source control that does as a script says. -/
theorem resolve_modes (s : SourceScript) (settings : Settings) (workingDir : Option Path)
    (core : Core) (variantKey : String) (w : World) (hw : w.files.WellFormed) :
    let resolution := resolve (.scripted s) settings workingDir core variantKey
    (core.isLatest = false → resolution.runIn w = (.ok core.version, w)) ∧
    (core.isLatest = true → ∀ path, core.checkout? = some path →
      ∃ e, HasEffect resolution w e ∧ e.files = w.files ∧ warnings e.lines = [] ∧
        Answers s (baseOf workingDir w / .ofString path) e.result e.calls) ∧
    (core.isLatest = true → core.checkout? = none → ¬ w.MakesTemporary →
      ∃ cause, resolution.runIn w = (.error (.tempNotMade (.os cause)), w)) ∧
    (core.isLatest = true → core.checkout? = none → w.MakesTemporary →
      let tree := Path.ofLocation w.nextTemporary
      w.files.node? w.nextTemporary = none ∧
      ∃ outcome calls, AnswersClone s settings.repository variantKey tree outcome calls ∧
        ∀ remove, ∃ r w', resolution.runIn { w with removeTempFault := remove } = (r, w') ∧
          w'.calls = w.calls ++ .clone settings.repository variantKey tree true :: calls ∧
          match remove with
          | none => r = outcome ∧ w'.files = w.files ∧ warnings w'.log = warnings w.log
          | some message =>
            let failure := Failure.tempNotRemoved tree (.os (.other message))
            match outcome with
            | .ok _ => r = .error failure ∧ warnings w'.log = warnings w.log
            | .error f => r = .error f ∧
              warnings w'.log = warnings w.log ++ [⟨.warning, logger, failure.message⟩]) := by
  intro resolution
  refine ⟨fun hpinned => ?_, fun hlatest path hpath => ?_, fun hlatest hclone hnot => ?_,
    fun hlatest hclone hmake => ⟨World.nextTemporary_fresh hw, ?_⟩⟩
  · rw [show resolution = pure core.version from resolve_of_pinned hpinned]
    rfl
  · rw [show resolution = _ from resolve_of_checkout hlatest hpath]
    obtain ⟨e, he, hfiles, hquiet, hanswers⟩ :=
      ofTree_effect s settings (baseOf workingDir w / .ofString path) (w.after _)
    exact ⟨_, .get_bind (fun _ _ => rfl) (HasEffect.bind (.write _ _ _ _) rfl he), hfiles, hquiet,
      hanswers⟩
  · rw [show resolution = _ from resolve_of_clone hlatest hclone]
    exact runIn_withTemporary_of_not logger _ hnot
  · rw [show resolution = _ from resolve_of_clone hlatest hclone]
    exact withTemporary_ofClone s settings variantKey hw hmake

/-- A world in which temporary directories can be made but not removed. -/
def stuckTemporary : World where
  files := ⟨[(["tmp"], .directory)]⟩
  here := []
  tempRoot := ["tmp"]
  makeTempFault := none
  removeTempFault := some "Device or resource busy"
  gitRuns := []
  answer := .failed (.failed "there is no network")
  closes := 0
  calls := []
  log := []

/-- A clone that writes a file and then breaks off. -/
def brokenClone : SourceScript where
  written := [(["core", "build.gradle"], .file [0x76])]
  cloneFailure := some (.foreign "interrupted")

theorem resolve_modes_brokenClone :
    stuckTemporary.files.WellFormed ∧
      ∃ w' line, (resolve (.scripted brokenClone) {} none ⟨"latest", some ""⟩ "1.12.2-forge").runIn
          stuckTemporary = (.error (.foreign "interrupted"), w') ∧
        w'.calls = [.clone ({} : Settings).repository "1.12.2-forge"
          (.ofLocation ["tmp", "umc-loader0"]) true] ∧
        warnings w'.log = [line] := by
  have hfiles : stuckTemporary.files.WellFormed :=
    ⟨by decide +kernel, by decide +kernel, by decide +kernel⟩
  have hmodes := resolve_modes brokenClone {} none ⟨"latest", some ""⟩ "1.12.2-forge"
    stuckTemporary hfiles
  obtain ⟨-, -, -, hclone⟩ := hmodes
  obtain ⟨-, outcome, calls, ⟨rfl, rfl⟩, h⟩ := hclone rfl rfl ⟨rfl, rfl⟩
  obtain ⟨r, w', hrun, hcalls, rfl, hlog⟩ := h (some "Device or resource busy")
  exact ⟨hfiles, w', _, hrun, hcalls, hlog⟩

end Version

end ModBuild
