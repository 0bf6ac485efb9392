import ModBuild.Artifact.Basic
import ModBuild.Version.Resolve

/-!
# Locating the binary

A core library with a local checkout has its binary in the build directory of the
checkout, and the binary must be there.  Any other has a published binary, and
nothing is asked for yet.
-/

namespace ModBuild.Artifact

/-- Where a checkout has the binary for a variant and a version. -/
def builtPath (base : Path) (checkout variantKey version : String) : Path :=
  base / .ofString checkout / buildDirectory / .ofString (fileName variantKey version)

/-- The binary of the core library for a variant and a version. -/
def locate (settings : Settings) (workingDir : Option Path) (core : Core)
    (variantKey version : String) : Action Artifact := do
  match core.checkout? with
  | none => return published (publication settings variantKey version)
  | some checkout =>
    let w ← get
    let path := builtPath (Version.baseOf workingDir w) checkout variantKey version
    if w.isFile path then
      Action.write .debug "umcloader.artifact.locator"
        ("Located local core library " ++ path.toString)
      return file path
    else
      throw (.artifactNotFound path)

end ModBuild.Artifact
