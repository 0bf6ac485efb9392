import ModBuild.Files.Temporary
import ModBuild.Settings
import ModBuild.Source.Control
import ModBuild.Version.Line

/-!
# The version of the core library

A descriptor names a version, or it asks for the newest one.  The newest version
is read off a source tree: it is the version in the build file of the tree, with
a dash and the revision of the tree behind it.  The tree is the local checkout if
the descriptor has one, and otherwise a fresh clone of the branch that is named
after the variant, in a temporary directory.
-/

namespace ModBuild.Version

/-- The part of the program that writes the log here. -/
def logger : String := "umcloader.resolver.version"

/-- The version of a source tree. -/
def ofTree (source : SourceControl) (settings : Settings) (tree : Path) : Action String := do
  let line ← readLine (tree / .ofString settings.buildFile) settings.versionPrefix
  match ← Action.attempt (source.revision tree) with
  | .error f => throw (if f.isOfSource then .revisionUnknown tree f else f)
  | .ok revision =>
    let version := line ++ "-" ++ revision
    Action.write .debug logger ("Resolved core version " ++ version)
    return version

/-- The version of a fresh clone into a directory. -/
def ofClone (source : SourceControl) (settings : Settings) (branch : String) (tree : Path) :
    Action String := do
  let url := settings.repository
  Action.write .debug logger ("Resolving latest core version from " ++ url ++ " at " ++ branch)
  match ← Action.attempt (source.clone url branch tree true) with
  | .error f => throw (if f.isOfSource then .notCloned url branch f else f)
  | .ok _ => ofTree source settings tree

/-- The directory that a relative path starts in. -/
def baseOf (workingDir : Option Path) (w : World) : Path :=
  workingDir.getD (.ofLocation w.here)

/-- The version of the core library for a variant. -/
def resolve (source : SourceControl) (settings : Settings) (workingDir : Option Path)
    (core : Core) (variantKey : String) : Action String := do
  if core.isLatest then
    match core.checkout? with
    | some path =>
      let tree := baseOf workingDir (← get) / .ofString path
      Action.write .debug logger
        ("Resolving latest core version from local tree " ++ tree.toString)
      ofTree source settings tree
    | none => Action.withTemporary logger (ofClone source settings variantKey)
  else
    return core.version

end ModBuild.Version
