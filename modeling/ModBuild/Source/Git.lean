import ModBuild.Source.Control
import ModBuild.Text.Blank

/-!
# Git

Git is run with arguments and with a limit of time.  A clone that fails leaves an
empty directory where there was one, whatever Git had put there by then.
-/

namespace ModBuild.Git

/-- The part of the program that writes the log here. -/
def logger : String := "umcloader.source.git_ops"

/-- The seconds that Git may take to tell a revision. -/
def revisionSeconds : Int := 10

/-- The next run of Git. -/
def nextRun : Action GitRun := do
  let w ← get
  match w.gitRuns with
  | [] => return ⟨.notInstalled, []⟩
  | r :: rs =>
    set { w with gitRuns := rs }
    return r

/-- What a run of Git wrote, or why it failed. -/
def output (arguments : List String) : GitOutcome → Except GitFault String
  | .notInstalled => .error .notInstalled
  | .timedOut => .error (.timedOut arguments)
  | .exited code output errors =>
    if code = 0 then .ok output else .error (.failed arguments errors)

/-- Put what a run of Git leaves below a target there.  If it leaves anything, the
target is made first. -/
def leave (target : Path) (written : List (List String × Node)) : Action Unit := do
  if written ≠ [] then
    Action.ensureDirectories target
    let l ← Action.locate target
    Action.setFiles (written.foldl (fun files e => files.plant l e.1 e.2) (← get).files)

/-- Run Git, which may leave something below a target. -/
def run (arguments : List String) (seconds : Int) (target : Option Path) : Action String := do
  Action.write .debug logger ("Running git " ++ " ".intercalate arguments)
  Action.record (.git ("git" :: arguments) seconds)
  let r ← nextRun
  match target with
  | some target => leave target r.written
  | none => pure ()
  match output arguments r.outcome with
  | .ok text => return text
  | .error fault => throw (.git fault)

/-- The arguments of a clone. -/
def cloneArguments (url branch : String) (target : Path) (shallow : Bool) : List String :=
  ["clone", "--branch", branch, "--single-branch"] ++ (if shallow then ["--depth=1"] else []) ++
    [url, target.toString]

/-- Clone a branch of a repository.  If Git fails, what it left is removed. -/
def clone (url branch : String) (target : Path) (shallow : Bool) (seconds : Int) :
    Action Unit := do
  Action.write .info logger
    ("Cloning " ++ url ++ " (branch " ++ branch ++ ") into " ++ target.toString)
  match ← Action.attempt (run (cloneArguments url branch target shallow) seconds (some target)) with
  | .ok _ => return ()
  | .error (.git fault) =>
    Action.clear target
    throw (.git fault)
  | .error f => throw f

/-- The short name of the commit that a tree is at. -/
def revision (tree : Path) (seconds : Int) : Action String := do
  let text ← run ["-C", tree.toString, "rev-parse", "--short", "HEAD"] seconds none
  let name := Text.trimmed text
  if name = "" then throw (.git (.noRevision tree)) else return name

/-- Git as a source control, with a limit of time for clones. -/
def control (seconds : Int) : SourceControl where
  clone url branch target shallow := clone url branch target shallow seconds
  revision tree := revision tree revisionSeconds

end ModBuild.Git
