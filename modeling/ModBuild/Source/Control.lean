import ModBuild.Files.Access

/-!
# Source control

Two things are asked of a source control: to check out a branch, and to tell the
revision of a tree.  `SourceControl.scripted` follows a script and so stands in
for one that is not there: it writes what the script says and fails as the script
says.
-/

namespace ModBuild

/-- A source control. -/
structure SourceControl where
  /-- Check out a branch of a repository into an empty directory, with its history
  or without. -/
  clone (url branch : String) (target : Path) (shallow : Bool) : Action Unit
  /-- The revision of a tree. -/
  revision (tree : Path) : Action String

/-- The failures that count as failures of a source control: those of Git and of
the file system. -/
def Failure.isOfSource : Failure → Bool
  | .git _ => true
  | .os _ => true
  | _ => false

/-- What a scripted source control does. -/
structure SourceScript where
  /-- What a clone puts below its target. -/
  written : List (List String × Node) := []
  /-- How a clone fails, after it has written. -/
  cloneFailure : Option Failure := none
  /-- The revision of every tree. -/
  revision : String := "abc1234"
  /-- How a question for a revision fails. -/
  revisionFailure : Option Failure := none

/-- A source control that follows a script. -/
def SourceControl.scripted (s : SourceScript) : SourceControl where
  clone url branch target shallow := do
    Action.record (.clone url branch target shallow)
    let w ← get
    match w.locate target with
    | .ok l =>
      Action.setFiles (s.written.foldl (fun files e => files.plant l e.1 e.2) w.files)
    | .error f => throw f
    match s.cloneFailure with
    | some f => throw f
    | none => return ()
  revision tree := do
    Action.record (.revision tree)
    match s.revisionFailure with
    | some f => throw f
    | none => return s.revision

end ModBuild
