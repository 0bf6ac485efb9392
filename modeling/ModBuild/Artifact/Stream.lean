import ModBuild.Artifact.Basic
import ModBuild.Artifact.Download
import ModBuild.Files.Access

/-!
# The binary as a stream

The binary is opened, read and closed.  A file is read where it lies, so what
happens to it meanwhile shows.  A publication is downloaded.  Its response is
closed when the stream is closed for the first time, or at once if its status is
a refusal.
-/

namespace ModBuild

/-- Where the octets of a stream come from. -/
inductive Stream.Source where
  /-- A file, from a position on. -/
  | file (place : Location) (position : Nat)
  | download (d : Download)
deriving DecidableEq, Repr

/-- A binary that was opened. -/
structure Stream where
  /-- Where its octets come from. -/
  source : Stream.Source
  /-- Whether it is still open. -/
  isOpen : Bool
deriving DecidableEq, Repr

namespace Stream

/-- Whether a stream can be read from, which only a file denies when it is
closed. -/
def readable (s : Stream) : Except Failure Bool :=
  match s.source with
  | .file .. => if s.isOpen then .ok true else .error (.closed "I/O operation on closed file")
  | .download _ => .ok true

/-- The octets of the file at a location. -/
def octetsAt (files : FileTree) (place : Location) : List UInt8 :=
  match files.node? place with
  | some (.file octets) => octets
  | _ => []

/-- Read a number of octets, or all that are left if the number is -1. -/
def read (s : Stream) (count : Int) : Action (List UInt8 × Stream) := do
  if count < -1 then
    throw (.closed "read length must be non-negative or -1")
  else if ! s.isOpen then
    throw (.closed "read of closed file")
  else
    match s.source with
    | .file place position =>
      let left := (octetsAt (← get).files place).drop position
      let octets := if count = -1 then left else left.take count.toNat
      return (octets, { s with source := .file place (position + octets.length) })
    | .download d =>
      let (octets, d) ← Action.ofExcept (if count = -1 then d.readAll else d.read count.toNat)
      return (octets, { s with source := .download d })

/-- Close a stream.  Only the first time has an effect. -/
def close (s : Stream) : Action Stream := do
  match s.source, s.isOpen with
  | .download _, true => modify fun w => { w with closes := w.closes + 1 }
  | _, _ => pure ()
  return { s with isOpen := false }

/-- The most octets that a stream can still give, in a world. -/
def size (s : Stream) (w : World) : Nat :=
  match s.source with
  | .file place position => (octetsAt w.files place).length - position
  | .download d => d.buffer.length + d.size

end Stream

namespace Artifact

/-- Open a file. -/
def openFile (path : Path) : Action Stream := do
  match ← Action.attempt (Action.readFile path) with
  | .error (.os cause) => throw (.artifactNotOpened path cause)
  | .error f => throw f
  | .ok _ => return ⟨.file (← Action.locate path) 0, true⟩

/-- Why a download does not start. -/
def requestFailure (url : String) (seconds : Int) : Http.RequestFault → Failure
  | .timedOut => .downloadTimedOut url seconds
  | .failed message => .downloadFailed url message
  | .system message => .os (.other message)
  | .foreign message => .foreign message

/-- Start a download, which the server may take some seconds to answer. -/
def download (url : String) (seconds : Int) : Action Stream := do
  Action.write .info "umcloader.artifact.locator" ("Downloading " ++ url)
  Action.record (.download url seconds)
  match (← get).answer with
  | .failed fault => throw (requestFailure url seconds fault)
  | .response r =>
    match r.refusal? url with
    | some reason =>
      modify fun w => { w with closes := w.closes + 1 }
      throw (.downloadFailed url reason)
    | none => return ⟨.download ⟨url, r.body, []⟩, true⟩

/-- Open the binary. -/
def openStream (a : Artifact) (seconds : Int) : Action Stream :=
  match a with
  | file path => openFile path
  | published p => download p.url seconds

end Artifact

end ModBuild
