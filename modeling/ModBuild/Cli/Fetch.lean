import ModBuild.Cli.Report

/-!
# Getting the binary

The binary is opened as a stream and copied to a file in large pieces.  A file
that could not be written to its end is removed.  The stream is closed, however
the copy ends.
-/

namespace ModBuild.Cli

/-- The number of octets in a piece. -/
def pieceSize : Nat := 65536

/-- Copy a stream to the end of a file. -/
def copyStream (s : Stream) (l : Location) : (fuel : Nat) → Action Unit
  | 0 => pure ()
  | fuel + 1 => do
    let (octets, s) ← s.read pieceSize
    if octets = [] then
      return ()
    else
      Action.append l octets
      copyStream s l fuel

/-- Write a stream to a file, which is removed if that fails. -/
def writeStream (s : Stream) (destination : Path) : Action Unit := do
  let fuel := s.size (← get) + 1
  let l ← Action.writeFile destination []
  match ← Action.attempt (copyStream s l fuel) with
  | .ok _ => return ()
  | .error f =>
    Action.removeFile destination
    throw f

/-- Get the binary of a resolution. -/
def fetchArtifact (r : Resolution) (destination : Path) : Action Unit := do
  let s ← r.openArtifact
  let outcome ← Action.attempt do
    Action.ensureDirectories destination.parent
    writeStream s destination
  let _ ← s.close
  Action.ofExcept outcome

/-- Copy or download the binary to a file. -/
def fetchBinary (r : Request) (destination : String) (environment : List (String × String)) :
    Action Report := do
  let destination := Path.ofString destination
  let outcome ← Action.attempt do
    let resolution ← r.resolve environment
    fetchArtifact resolution destination
    return resolution.version
  match outcome with
  | .ok version =>
    return .done ("Wrote core library " ++ version ++ " to '" ++ destination.toString ++ "'.")
  | .error (.os cause) =>
    return .failed ("cannot copy core library to '" ++ destination.toString ++ "': " ++
      cause.message)
  | .error f => reportFailure f

end ModBuild.Cli
