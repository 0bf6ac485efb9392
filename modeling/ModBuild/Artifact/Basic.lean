import ModBuild.Path
import ModBuild.Settings

/-!
# The binary of the core library

The binary is a file on disk or a publication in a Maven repository.  Both are
named by the key of the variant and the version of the core library.  A build
script needs two lines for it: where to look, and what to take.
-/

namespace ModBuild

/-- A binary in a Maven repository. -/
structure Publication where
  /-- The URL of the binary. -/
  url : String
  /-- The URL of the repository. -/
  repositoryUrl : String
  /-- The group, name and version of the binary, with colons between them. -/
  coordinate : String
deriving DecidableEq, Repr

/-- The binary of the core library. -/
inductive Artifact where
  | file (path : Path)
  | published (p : Publication)
deriving DecidableEq, Repr

namespace Artifact

/-- The name of the binary. -/
def baseName : String := "UniversalModCore"

/-- The parts of the group that the binary is published under. -/
def groupParts : List String := ["cam72cam", "universalmodcore"]

/-- The name of the file for a variant and a version. -/
def fileName (variantKey version : String) : String :=
  baseName ++ "-" ++ variantKey ++ "-" ++ version ++ ".jar"

/-- The directory of a checkout in which binaries are built. -/
def buildDirectory : Path := ⟨.relative, ["build", "libs"]⟩

/-- The publication for a variant and a version. -/
def publication (settings : Settings) (variantKey version : String) : Publication :=
  let full := variantKey ++ "-" ++ version
  { url :=
      settings.mavenUrl ++ "/" ++ "/".intercalate groupParts ++ "/" ++ baseName ++ "/" ++ full ++
        "/" ++ fileName variantKey version
    repositoryUrl := settings.mavenUrl
    coordinate := ".".intercalate groupParts ++ ":" ++ baseName ++ ":" ++ full }

/-- Whether the binary is a file. -/
def isFile : Artifact → Bool
  | file _ => true
  | published _ => false

/-- The line that says where to look. -/
def repositoryLine : Artifact → String
  | file path => "flatDir \x7b dirs '" ++ path.parent.toString ++ "' \x7d"
  | published p => "maven \x7b url = \"" ++ p.repositoryUrl ++ "\" \x7d"

/-- The line that says what to take. -/
def dependencyLine : Artifact → String
  | file path => "name: '" ++ path.stem ++ "'"
  | published p => "'" ++ p.coordinate ++ "'"

end Artifact

end ModBuild
