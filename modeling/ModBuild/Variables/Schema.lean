import ModBuild.Variant

/-!
# The names of the variables

A build has twenty variables, always in the same order.  Two are named by the
dialect.  One says where the core library is: a file if it is at hand, a
download otherwise.
-/

namespace ModBuild.Variables

/-- The variable that names the file of the core library. -/
def fileKey : String := "UMC_FILE"

/-- The variable that names the download of the core library. -/
def downloadKey : String := "UMC_DOWNLOAD"

/-- The names of the variables in order. -/
def schema (dialect : Dialect) (atHand : Bool) : List String :=
  ["PACKAGE", "PACKAGEPATH", "CLASS", "NAME", "ID", "VERSION", "LOADER_VERSION", "MINECRAFT",
    "LOADER", "LIB_REPOS", dialect.dependenciesKey, dialect.relocationKey, "UMC_API",
    "UMC_API_NEXT", "UMC_VERSION", "UMC_REPO", "UMC_DEPENDENCY",
    if atHand then fileKey else downloadKey, "FORGE_STRING_DEPENDENCIES",
    "FORGE_TOML_DEPENDENCIES"]

/-- No name occurs twice. -/
theorem nodup_schema (dialect : Dialect) (atHand : Bool) : (schema dialect atHand).Nodup := by
  cases dialect <;> cases atHand <;> decide +kernel

end ModBuild.Variables
