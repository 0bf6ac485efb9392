import ModBuild.Cli.Run
import ModBuild.Proofs.World.Run

/-!
# Runs of the program

A command line that asks for a command runs it, and the report of the command gets the log in
front of its errors (`of_run`).  A report on a failure changes nothing (`runIn_reportFailure`).
-/

namespace ModBuild.Cli

open ModBuild.Action

variable {arguments : List String} {environment : List (String × String)} {verbose : Bool}
variable {command : Command} {w w' : World}

/-- A report with the log. -/
def Report.withLog (verbose : Bool) (log : List LogLine) (report : Report) : Report :=
  { report with errors := shownLog verbose log ++ report.errors }

theorem of_run (hparse : Invocation.parse arguments = .ok (some ⟨verbose, command⟩))
    {outcome : Except Failure Report} (hrun : (run arguments environment).runIn w = (outcome, w')) :
    ∃ outcome₀, (command.run environment).runIn w = (outcome₀, w') ∧
      outcome = outcome₀.map (Report.withLog verbose w'.log) := by
  rw [run, hparse] at hrun
  dsimp only at hrun
  rw [runIn_bind] at hrun
  rcases hcommand : (command.run environment).runIn w with ⟨f | report, v⟩
  · rw [hcommand] at hrun
    cases hrun
    exact ⟨_, rfl, rfl⟩
  · rw [hcommand] at hrun
    cases hrun
    exact ⟨_, rfl, rfl⟩

/-- What comes of a failure. -/
def reported (f : Failure) : Except Failure Report :=
  if f.kind.isReported then .ok (.failed f.message) else .error f

theorem runIn_reportFailure (f : Failure) (w : World) :
    (reportFailure f).runIn w = (reported f, w) := by
  unfold reportFailure reported
  split <;> rfl

/-- A failure never counts as a success. -/
theorem status_of_reported {f : Failure} {report : Report} (h : reported f = .ok report) :
    report.status = 1 := by
  unfold reported at h
  split at h
  · cases h
    rfl
  · cases h

end ModBuild.Cli
