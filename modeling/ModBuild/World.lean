import ModBuild.Failure
import ModBuild.Files.Tree
import ModBuild.Http

/-!
# The world of a run

A run reads and writes files, starts Git, asks a server and writes a log.  All of
it happens in a *world*, which is plain data: the file tree, what the coming runs
of Git will do, what the server will answer, and the record of what was done so
far.  An *action* takes a world to another one, with a value or a failure, and a
failure undoes nothing.
-/

namespace ModBuild

/-- How a run of Git ends. -/
inductive GitOutcome where
  /-- There is no Git to run. -/
  | notInstalled
  /-- It is stopped because it takes too long. -/
  | timedOut
  /-- It ends with a code and with what it wrote. -/
  | exited (code : Int) (output errors : String)
deriving DecidableEq, Repr

/-- What a run of Git does. -/
structure GitRun where
  outcome : GitOutcome
  /-- What it puts below the target of a clone. -/
  written : List (List String × Node)
deriving DecidableEq, Repr

/-- Something that was asked of the outside. -/
inductive Call where
  /-- A run of Git with its arguments and the seconds that it may take. -/
  | git (arguments : List String) (seconds : Int)
  /-- A clone by a source control. -/
  | clone (url branch : String) (target : Path) (shallow : Bool)
  /-- A question for the revision of a tree. -/
  | revision (tree : Path)
  /-- A download and the seconds that it may take to start. -/
  | download (url : String) (seconds : Int)
deriving DecidableEq, Repr

/-- The weight of a line in the log. -/
inductive Level where
  /-- For those who look for an error in the program. -/
  | debug
  /-- For those who want to know what goes on. -/
  | info
  | warning
deriving DecidableEq, Repr

/-- The name of a level. -/
def Level.name : Level → String
  | debug => "DEBUG"
  | info => "INFO"
  | warning => "WARNING"

/-- A line in the log. -/
structure LogLine where
  level : Level
  /-- The part of the program that wrote it. -/
  logger : String
  message : String
deriving DecidableEq, Repr

/-- A line as it is printed. -/
def LogLine.text (l : LogLine) : String :=
  l.level.name ++ " " ++ l.logger ++ ": " ++ l.message

/-- The world of a run. -/
structure World where
  files : FileTree
  here : Location
  /-- Where temporary directories are made. -/
  tempRoot : Location
  /-- Why no temporary directory can be made, if none can. -/
  makeTempFault : Option String
  /-- Why no temporary directory can be removed, if none can. -/
  removeTempFault : Option String
  /-- What the coming runs of Git do.  Behind the last there is no Git. -/
  gitRuns : List GitRun
  answer : Http.Answer
  /-- How often the response was closed. -/
  closes : Nat
  /-- What was asked of the outside, the first call first. -/
  calls : List Call
  /-- The log, the first line first. -/
  log : List LogLine

/-- A step in the world. -/
abbrev Action := ExceptT Failure (StateM World)

namespace Action

variable {α : Type}

/-- Run an action in a world. -/
def runIn (a : Action α) (w : World) : Except Failure α × World :=
  StateT.run (ExceptT.run a) w

/-- What a computation without effects gives. -/
def ofExcept (r : Except Failure α) : Action α :=
  match r with
  | .ok a => pure a
  | .error f => throw f

/-- Make a failure of an action a value. -/
def attempt (a : Action α) : Action (Except Failure α) :=
  ExceptT.mk do return .ok (← ExceptT.run a)

/-- Record a call. -/
def record (c : Call) : Action Unit :=
  modify fun w => { w with calls := w.calls ++ [c] }

/-- Write a line into the log. -/
def write (level : Level) (logger message : String) : Action Unit :=
  modify fun w => { w with log := w.log ++ [⟨level, logger, message⟩] }

/-- Replace the files. -/
def setFiles (files : FileTree) : Action Unit :=
  modify fun w => { w with files := files }

end Action

end ModBuild
