import ModBuild.Cli.Run

/-!
# The program

The program works on a copy of the working directory, and of every place that an
absolute argument names, and writes back what changed.  It starts no other
programs and asks no servers, so a run that needs Git or a download fails as it
does where there is neither.
-/

namespace ModBuild.Main

/-- The names in a path. -/
def namesOf (path : String) : List String :=
  (Path.ofString path).segments

/-- Add what is at a place, and all below it, to a tree. -/
partial def readPlace (files : FileTree) (path : String) : IO FileTree := do
  let location := namesOf path
  let place ← IO.FS.realPath path
  if ← place.isDir then
    let mut files := files.plant [] location .directory
    for entry in ← place.readDir do
      files ← readPlace files (path ++ "/" ++ entry.fileName)
    return files
  else
    let octets ← IO.FS.readBinFile path
    return files.plant [] location (.file octets.toList)

/-- Whether something is at a place. -/
def isThere (path : String) : IO Bool := do
  try
    let _ ← IO.FS.realPath path
    return true
  catch _ => return false

/-- The path of a location. -/
def pathOf (l : Location) : String :=
  (Path.ofLocation l).toString

/-- Bring the disk from one tree to another. -/
def writeBack (before after : FileTree) : IO Unit := do
  for e in before.entries.reverse do
    if (after.node? e.1).isNone then
      match e.2 with
      | .file _ => IO.FS.removeFile (pathOf e.1)
      | .directory => IO.FS.removeDir (pathOf e.1)
  for e in after.entries do
    if before.node? e.1 ≠ some e.2 then
      match e.2 with
      | .file octets =>
        IO.FS.createDirAll (pathOf e.1.dropLast)
        IO.FS.writeBinFile (pathOf e.1) (ByteArray.mk octets.toArray)
      | .directory => IO.FS.createDirAll (pathOf e.1)

/-- The world on the disk around some places, in which there is no Git and no
server. -/
def readWorld (places : List String) : IO World := do
  let here := toString (← IO.currentDir)
  let tempRoot := ["tmp"]
  let mut files := FileTree.empty.plant [] tempRoot .directory
  for place in here :: places do
    if ← isThere place then
      files ← readPlace files place
  return {
    files := files
    here := namesOf here
    tempRoot := tempRoot
    makeTempFault := none
    removeTempFault := none
    gitRuns := []
    answer := .failed (.failed "there is no network")
    closes := 0
    calls := []
    log := [] }

/-- The variables of the environment that the program reads. -/
def readEnvironment : IO (List (String × String)) := do
  let mut found := []
  for name in [Settings.repositoryVariable, Settings.mavenVariable] do
    if let some value ← IO.getEnv name then
      found := (name, value) :: found
  return found

end ModBuild.Main

open ModBuild

/-- Run the program. -/
def main (arguments : List String) : IO UInt32 := do
  let before ← Main.readWorld (arguments.filter fun a => a.startsWith "/")
  let (outcome, after) := (Cli.run arguments (← Main.readEnvironment)).runIn before
  Main.writeBack before.files after.files
  match outcome with
  | .ok report =>
    (← IO.getStdout).putStr report.output
    (← IO.getStderr).putStr report.errors
    return report.status.toUInt32
  | .error failure =>
    (← IO.getStderr).putStr (failure.message ++ "\n")
    return 1
