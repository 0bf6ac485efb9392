import ModBuild.Files.Access

/-!
# Temporary directories

A temporary directory is made for one action and removed when the action ends,
however it ends.  If it cannot be removed, the action fails, unless it failed
anyway: then the log has a warning, and the action fails as it did.
-/

namespace ModBuild

/-- What the names of temporary directories start with. -/
def temporaryStart : String := "umc-loader"

/-- A name that is longer than all those that are taken. -/
def freshName (taken : List String) : String :=
  let longest := taken.foldl (fun n s => max n s.length) 0
  .ofList (temporaryStart.toList ++ List.replicate (longest + 1) '0')

namespace Action

variable {α : Type}

/-- Make a temporary directory in the directory for them. -/
def makeTemporary : Action Location := do
  let w ← get
  match w.makeTempFault with
  | some message => throw (.os (.other message))
  | none =>
    let l := w.tempRoot ++ [freshName (w.files.names w.tempRoot)]
    match w.files.node? w.tempRoot with
    | some .directory =>
      setFiles (w.files.set l .directory)
      return l
    | some (.file _) => throw (.os (.notDirectory (.ofLocation l)))
    | none => throw (.os (.notFound (.ofLocation l)))

/-- Remove a temporary directory and all that is in it. -/
def removeTemporary (l : Location) : Action Unit := do
  let w ← get
  match w.removeTempFault with
  | some message => throw (.os (.other message))
  | none => setFiles (w.files.remove l)

/-- Do something in a temporary directory, which is gone afterwards. -/
def withTemporary (logger : String) (body : Path → Action α) : Action α := do
  match ← attempt makeTemporary with
  | .error cause => throw (.tempNotMade cause)
  | .ok l =>
    let path := Path.ofLocation l
    let outcome ← attempt (body path)
    let removal ← attempt (removeTemporary l)
    match outcome, removal with
    | .ok a, .ok _ => return a
    | .ok _, .error cause => throw (.tempNotRemoved path cause)
    | .error f, .ok _ => throw f
    | .error f, .error cause =>
      write .warning logger (Failure.tempNotRemoved path cause).message
      throw f

end Action

end ModBuild
