import ModBuild.World

/-!
# Access to files

Files are reached by paths.  A relative path starts in the working directory.  A
path that holds the character U+0000 reaches nothing.

The ways to look at a place never fail.  The ways to change it fail with the path
that was asked for, and leave the files as they were.
-/

namespace ModBuild

/-- The path that leads from the top to a location. -/
def Path.ofLocation (l : Location) : Path := ⟨.slash, l⟩

/-- Whether a path holds the character U+0000. -/
def Path.hasNull (p : Path) : Bool :=
  p.segments.any fun s => s.toList.contains '\x00'

/-- The names with the double dots taken back. -/
def withoutDots (before : Location) : List String → Location
  | [] => before
  | s :: ss => withoutDots (if s = ".." then before.dropLast else before ++ [s]) ss

namespace World

/-- Where a path starts. -/
def start (w : World) (p : Path) : Location :=
  match p.root with
  | .relative => w.here
  | _ => []

/-- The location that a path leads to.  Nothing need be there. -/
def locate (w : World) (p : Path) : Except Failure Location :=
  if p.hasNull then
    .error .nullInPath
  else
    match w.files.walk (w.start p) p.segments with
    | .ok l => .ok l
    | .error .missing => .error (.os (.notFound p))
    | .error .notDirectory => .error (.os (.notDirectory p))

/-- What is at the end of a path. -/
def node? (w : World) (p : Path) : Option Node :=
  match w.locate p with
  | .ok l => w.files.node? l
  | .error _ => none

/-- Whether a file is at the end of a path. -/
def isFile (w : World) (p : Path) : Bool :=
  match w.node? p with
  | some (.file _) => true
  | _ => false

/-- Whether a directory is at the end of a path. -/
def isDirectory (w : World) (p : Path) : Bool :=
  w.node? p == some .directory

/-- A path from the top without double dots.  It is found by the names alone. -/
def resolve (w : World) (p : Path) : Except Failure Path :=
  if p.hasNull then .error .nullInPath
  else .ok (.ofLocation (withoutDots (w.start p) p.segments))

end World

namespace Action

/-- The location that a path leads to. -/
def locate (p : Path) : Action Location := do
  ofExcept ((← get).locate p)

/-- The octets of a file. -/
def readFile (p : Path) : Action (List UInt8) := do
  let l ← locate p
  match (← get).files.node? l with
  | some (.file octets) => return octets
  | some .directory => throw (.os (.isDirectory p))
  | none => throw (.os (.notFound p))

/-- Put a file with some octets at the end of a path, in place of the file that
may be there. -/
def writeFile (p : Path) (octets : List UInt8) : Action Location := do
  let l ← locate p
  let files := (← get).files
  match files.node? l with
  | some .directory => throw (.os (.isDirectory p))
  | _ =>
    setFiles (files.set l (.file octets))
    return l

/-- Add octets to the end of a file. -/
def append (l : Location) (octets : List UInt8) : Action Unit := do
  let files := (← get).files
  match files.node? l with
  | some (.file before) => setFiles (files.set l (.file (before ++ octets)))
  | _ => return ()

/-- Remove a file, if it is there. -/
def removeFile (p : Path) : Action Unit := do
  let l ← locate p
  let files := (← get).files
  match files.node? l with
  | some (.file _) => setFiles (files.remove l)
  | some .directory => throw (.os (.isDirectory p))
  | none => return ()

/-- Make a directory where nothing is. -/
def makeDirectory (p : Path) : Action Unit := do
  let l ← locate p
  let files := (← get).files
  match files.node? l with
  | some _ => throw (.os (.exists p))
  | none => setFiles (files.set l .directory)

/-- Make a directory, unless it is there. -/
def ensureDirectory (p : Path) : Action Unit := do
  match ← attempt (makeDirectory p) with
  | .ok _ => return ()
  | .error (.os e) =>
    if (← get).isDirectory p then return () else throw (.os e)
  | .error f => throw f

/-- Make a directory and those that it lies in, unless they are there.  The names
of the path come the last first. -/
def ensureDirectoriesFrom (root : Root) : List String → Action Unit
  | [] => ensureDirectory ⟨root, []⟩
  | s :: ss => do
    let p : Path := ⟨root, (s :: ss).reverse⟩
    match ← attempt (makeDirectory p) with
    | .ok _ => return ()
    | .error (.os (.notFound _)) =>
      ensureDirectoriesFrom root ss
      ensureDirectory p
    | .error (.os e) =>
      if (← get).isDirectory p then return () else throw (.os e)
    | .error f => throw f

/-- Make a directory and those that it lies in, unless they are there. -/
def ensureDirectories (p : Path) : Action Unit :=
  ensureDirectoriesFrom p.root p.segments.reverse

/-- Remove everything that is in a directory, if anything is at the end of the
path. -/
def clear (p : Path) : Action Unit := do
  match (← get).node? p with
  | none => return ()
  | some (.file _) => throw (.os (.notDirectory p))
  | some .directory =>
    let l ← locate p
    let files := (← get).files
    setFiles ((files.names l).foldl (fun files name => files.remove (l ++ [name])) files)

/-- Copy the octets of a file.  Source and target may not be one file. -/
def copyFile (source target : Path) : Action Unit := do
  let w ← get
  if source.hasNull || target.hasNull then
    throw .nullInPath
  else if (w.node? source).isSome && (w.locate source).toOption == (w.locate target).toOption then
    throw (.os (.sameFile source target))
  else
    let octets ← readFile source
    let _ ← writeFile target octets
    return ()

end Action

end ModBuild
