import ModBuild.Artifact.Basic
import ModBuild.Text.Blank
import ModBuild.Variables.Dependencies
import ModBuild.Variables.Libraries
import ModBuild.Variables.Table
import ModBuild.Version.Api

/-!
# The table of a build

The table is made of a descriptor, a variant, the version of the core library
and its binary.  Five texts of the mod and the version must not be blank, and
the version must start with an API version.  The first of these that fails is
the answer if one does.  The libraries are those that are for the variant, and
the dependencies are those of the mod with the core library after them.  The
variables are put together here and held against the schema like any others.
-/

namespace ModBuild.Variables

/-- Why there is no table. -/
inductive BuildError where
  | missingField (name : String)
  /-- The version starts with no API version. -/
  | invalidVersion (version : String)
  /-- The variables are not those of the schema. -/
  | table (cause : TableError)
deriving DecidableEq, Repr

/-- The message for a build without a table. -/
def BuildError.message : BuildError → String
  | .missingField name => "Missing variable " ++ name ++ " in config"
  | .invalidVersion version => ApiVersion.invalidMessage version
  | .table cause => cause.message

/-- A text that must not be blank. -/
def nonBlank (name value : String) : Except BuildError String :=
  if Text.AllBlank value then .error (.missingField name) else .ok value

/-- The API version of a version that must have one. -/
def apiOf (version : String) : Except BuildError ApiVersion :=
  match ApiVersion.ofVersion? version with
  | some api => .ok api
  | none => .error (.invalidVersion version)

/-- The id of the core library as a dependency. -/
def coreId : String := "universalmodcore"

/-- The dependency on the core library, up to the next API version. -/
def coreDependency (api : ApiVersion) : Dependency :=
  ⟨coreId, "[" ++ api.text ++ ", " ++ api.next.text ++ ")"⟩

/-- The dependencies of a mod with the core library after them. -/
def allDependencies (m : Mod) (api : ApiVersion) : List Dependency :=
  m.dependencies ++ [coreDependency api]

/-- The libraries of a mod that are for a variant. -/
def librariesFor (m : Mod) (v : Variant) : List Library :=
  m.libraries.filter fun l => l.AppliesTo v.key

/-- The package of a mod as a path. -/
def packagePath (pkg : String) : String :=
  .ofList (pkg.toList.map fun c => if c = '.' then '/' else c)

/-- The last variable about the core library: its file or its download. -/
def locationEntry : Artifact → String × String
  | .file path => (fileKey, path.toString)
  | .published p => (downloadKey, p.url)

/-- The variables of a build with their values. -/
def entriesOf (dialect : Dialect) (m : Mod) (v : Variant) (version : String) (api : ApiVersion)
    (artifact : Artifact) : List (String × String) :=
  let libraries := librariesFor m v
  let dependencies := allDependencies m api
  [("PACKAGE", m.pkg),
    ("PACKAGEPATH", packagePath m.pkg),
    ("CLASS", m.className),
    ("NAME", m.name),
    ("ID", m.id),
    ("VERSION", m.version),
    ("LOADER_VERSION", v.key),
    ("MINECRAFT", v.platform),
    ("LOADER", v.brand.name),
    ("LIB_REPOS", repositories libraries),
    (dialect.dependenciesKey, declarations libraries),
    (dialect.relocationKey, relocations libraries),
    ("UMC_API", api.text),
    ("UMC_API_NEXT", api.next.text),
    ("UMC_VERSION", version),
    ("UMC_REPO", artifact.repositoryLine),
    ("UMC_DEPENDENCY", artifact.dependencyLine),
    locationEntry artifact,
    ("FORGE_STRING_DEPENDENCIES", requirements dependencies),
    ("FORGE_TOML_DEPENDENCIES", (tomlBlocks? v.brand m.id dependencies).getD "")]

/-- The table of a build. -/
def build (dialect : Dialect) (d : Descriptor) (v : Variant) (version : String)
    (artifact : Artifact) : Except BuildError Table := do
  let m := d.mod
  let _ ← nonBlank "mod.package" m.pkg
  let _ ← nonBlank "umc.version" version
  let api ← apiOf version
  let _ ← nonBlank "mod.class" m.className
  let _ ← nonBlank "mod.name" m.name
  let _ ← nonBlank "mod.id" m.id
  let _ ← nonBlank "mod.version" m.version
  (Table.ofEntries dialect (entriesOf dialect m v version api artifact)).mapError .table

end ModBuild.Variables
