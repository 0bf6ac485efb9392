import ModBuild.Cli.Invocation
import ModBuild.Descriptor.Load
import ModBuild.Resolution
import ModBuild.Source.Git

/-!
# Reports

A command ends with a *report*: the exit status and what is printed on either
output.  A failure that the user can mend makes a report with the status 1 and
one line.  Any other failure is no report.
-/

namespace ModBuild.Cli

/-- How a command ends. -/
structure Report where
  status : Nat
  output : String
  errors : String
deriving DecidableEq, Repr

/-- A success with one line. -/
def Report.done (line : String) : Report := ⟨0, line ++ "\n", ""⟩

/-- A failure with one line. -/
def Report.failed (line : String) : Report := ⟨1, "", "Error: " ++ line ++ "\n"⟩

/-- The settings for a request. -/
def Request.settings (r : Request) (environment : List (String × String)) : Settings :=
  ((Settings.ofEnvironment environment).withRepository r.repository).withMavenUrl r.maven

/-- Resolve what a request asks for. -/
def Request.resolve (r : Request) (environment : List (String × String)) : Action Resolution := do
  match Brand.parse? r.loader with
  | none => throw (.unknownLoader r.loader)
  | some brand =>
    let settings := r.settings environment
    let d ← Descriptor.load (.ofString r.descriptor)
    Resolution.ofDescriptor (Git.control settings.gitTimeout)
      ⟨⟨r.minecraft, brand⟩, r.dialect, settings, none⟩ d

/-- Report a failure that the user can mend. -/
def reportFailure (f : Failure) : Action Report :=
  if f.kind.isReported then return .failed f.message else throw f

end ModBuild.Cli
