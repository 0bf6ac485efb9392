import ModBuild.Proofs.Files.Temporary
import ModBuild.Source.Git

/-!
# What Git changes

A question for a revision changes no files.  A clone changes files at its target
and below it only, however it ends.  Both are a run of Git and little else, so a
condition that a run of Git preserves is preserved by them (`revision_of_run`,
`clone_of_run`).
-/

namespace ModBuild.Git

open ModBuild.Action

/-! ## Runs of Git -/

section Run

variable {I : World → Prop} {w : World} {arguments : List String} {seconds : Int}

/-- The world in which a run of Git has been logged and recorded. -/
def started (arguments : List String) (seconds : Int) (w : World) : World :=
  { w with
    calls := w.calls ++ [.git ("git" :: arguments) seconds]
    log := w.log ++ [⟨.debug, logger, "Running git " ++ " ".intercalate arguments⟩] }

/-- The next run of Git is taken from those to come. -/
theorem nextRun_ignores (h : ∀ w gitRuns, I w → I { w with gitRuns }) : Preserves I nextRun := by
  refine Preserves.get_bind fun w hw => ?_
  split
  · exact hw
  · exact h w _ hw

/-- What holds once Git is started holds after the run. -/
theorem run_of_started {target : Option Path} (hnext : Preserves I nextRun)
    (hleave : ∀ p ∈ target, ∀ written, Preserves I (leave p written))
    (h : I (started arguments seconds w)) : I ((run arguments seconds target).runIn w).2 := by
  rw [run, runIn_bind_ok (runIn_write _ _ _ _), runIn_bind_ok (runIn_record _ _)]
  refine hnext.bind (fun r => ?_) _ h
  cases target with
  | none =>
    dsimp only
    split
    · exact .pure _
    · exact .throw _
  | some p =>
    refine (hleave p rfl r.written).bind fun _ => ?_
    split
    · exact .pure _
    · exact .throw _

/-- What holds after the run of Git for a revision holds when the revision is told. -/
theorem revision_of_run {tree : Path}
    (h : I ((run ["-C", tree.toString, "rev-parse", "--short", "HEAD"] seconds none).runIn w).2) :
    I ((revision tree seconds).runIn w).2 := by
  refine Preserves.behind h fun text => ?_
  dsimp only
  split
  · exact .throw _
  · exact .pure _

/-- What holds after the run of Git for a clone holds when the clone is done. -/
theorem clone_of_run {url branch : String} {target : Path} {shallow : Bool}
    (hclear : Preserves I (clear target))
    (h : ∀ log, I ((run (cloneArguments url branch target shallow) seconds (some target)).runIn
      { w with log }).2) : I ((clone url branch target shallow seconds).runIn w).2 := by
  rw [clone, runIn_bind_ok (runIn_write _ _ _ _)]
  refine Preserves.behind (h _) fun outcome => ?_
  split
  · exact .pure _
  · exact hclear.bind fun _ => .throw _
  · exact .throw _

/-- What Git leaves is a change of files. -/
theorem leave_ignores (h : Preserves.IgnoresFiles I) (target : Path)
    (written : List (List String × Node)) : Preserves I (leave target written) := by
  unfold leave
  split
  · refine (ensureDirectories_ignores h target).bind fun _ => ?_
    refine (locate_preserves I target).bind fun l => ?_
    exact .get_bind fun v hv => Preserves.setFiles h _ v hv
  · exact .pure ()

end Run

/-! ## Files and stage -/

theorem nextRun_preserves {P : FileTree → World.Stage → Prop} :
    Preserves (fun w => P w.files w.stage) nextRun :=
  nextRun_ignores fun _ _ h => h

theorem run_preserves {P : FileTree → World.Stage → Prop} {target : Option Path}
    (h : ∀ p ∈ target, ∀ written, Preserves (fun w => P w.files w.stage) (leave p written))
    (arguments : List String) (seconds : Int) :
    Preserves (fun w => P w.files w.stage) (run arguments seconds target) :=
  fun _ hw => run_of_started nextRun_preserves h hw

theorem revision_preserves {P : FileTree → World.Stage → Prop} (tree : Path) (seconds : Int) :
    Preserves (fun w => P w.files w.stage) (revision tree seconds) := by
  let I : World → Prop := fun w => P w.files w.stage
  have hrun (arguments : List String) : Preserves I (run arguments seconds none) :=
    run_preserves (fun _ h => by cases h) arguments seconds
  exact fun w hw => revision_of_run (I := I) (hrun _ w hw)

/-! ## Clones -/

section Clone

variable {t : FileTree} {stage : World.Stage} {l : Location}

/-- All directories on the way are there, so only the last can be made. -/
theorem ensureDirectories_below (hdots : ".." ∉ l) (hl : t.DirectoriesTo l) :
    Preserves (fun w => w.files.remove l = t ∧ w.stage = stage)
      (ensureDirectories (.ofLocation l)) := by
  refine ensureDirectories_preserves fun q hq w hw => ?_
  change q <+: l at hq
  rcases makeDirectory_cases ⟨.slash, q⟩ w with ⟨f, hr⟩ | ⟨m, hm, hn, hr⟩
  · rw [Path.ofLocation, hr]
    exact hw
  · have hq' : Path.IsResolved ⟨.slash, q⟩ := (Path.isResolved_ofLocation hdots).initial hq
    have hm : m = q := ((World.locate_eq_ok_iff hq').1 hm).2.1
    rw [hm] at hn hr
    have hlast : q = l := by
      by_contra hne
      have hd := FileTree.directoriesTo_of_remove_eq hw.1 hl q hq hne
      rw [hn] at hd
      cases hd
    rw [Path.ofLocation, hr, hlast]
    exact ⟨(FileTree.set_remove _ (List.prefix_refl l) _).trans hw.1, hw.2⟩

theorem leave_below (hdots : ".." ∉ l) (hl : t.DirectoriesTo l)
    (written : List (List String × Node)) :
    Preserves (fun w => w.files.remove l = t ∧ w.stage = stage)
      (leave (.ofLocation l) written) := by
  unfold leave
  split
  · refine (ensureDirectories_below hdots hl).bind fun _ => ?_
    refine Preserves.locate_bind (Path.isResolved_ofLocation hdots) fun w hw => ?_
    exact ⟨(FileTree.foldl_plant_remove written _).trans hw.1, hw.2⟩
  · exact Preserves.pure ()

theorem clear_below (hdots : ".." ∉ l) :
    Preserves (fun w => w.files.remove l = t ∧ w.stage = stage)
      (clear (.ofLocation l)) := by
  refine Preserves.get_bind fun w hw => ?_
  split
  · exact hw
  · exact hw
  · refine Preserves.locate_bind (I := fun v => v.files.remove l = t ∧ v.stage = stage)
      (Path.isResolved_ofLocation hdots) (fun v hv => ?_) w hw
    exact ⟨(FileTree.foldl_remove_remove _ _).trans hv.1, hv.2⟩

/-- A clone changes nothing outside its target. -/
theorem clone_below (hdots : ".." ∉ l) (hl : t.DirectoriesTo l) (url branch : String)
    (shallow : Bool) (seconds : Int) :
    Preserves (fun w => w.files.remove l = t ∧ w.stage = stage)
      (clone url branch (.ofLocation l) shallow seconds) := by
  let P : FileTree → World.Stage → Prop := fun t' stage' => t'.remove l = t ∧ stage' = stage
  have hrun (arguments : List String) : Preserves (fun w => P w.files w.stage)
      (run arguments seconds (some (.ofLocation l))) := by
    refine run_preserves (fun p hp written => ?_) _ _
    cases hp
    exact leave_below hdots hl written
  exact fun w hw => clone_of_run (clear_below hdots) fun log => hrun _ { w with log } hw

end Clone

end ModBuild.Git
