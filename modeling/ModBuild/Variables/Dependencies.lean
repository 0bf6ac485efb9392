import ModBuild.Descriptor.Basic
import ModBuild.Variant

/-!
# Dependencies for mod loaders

The dependencies of a mod are written twice, each time in full.  The older form
is one line.  The newer is a block of TOML per dependency, with a blank line
between two blocks, and only some brands read it.
-/

namespace ModBuild.Variables

/-- A dependency in the older form. -/
def requirement (d : Dependency) : String :=
  "required-after:" ++ d.id ++ "@" ++ d.versions

/-- Dependencies in the older form. -/
def requirements (dependencies : List Dependency) : String :=
  "; ".intercalate (dependencies.map requirement)

/-- The line by which a brand demands that a dependency is present, if the
brand reads TOML. -/
def mandatoryLine? : Brand → Option String
  | .forge => some "mandatory=true"
  | .neoforge => some "type='required'"
  | .fabric | .quilt => none

/-- The block of a dependency of the mod with an id. -/
def tomlBlock (modId mandatory : String) (d : Dependency) : String :=
  "[[dependencies." ++ modId ++ "]]\n" ++
    "    modId=\"" ++ d.id ++ "\"\n" ++
    "    " ++ mandatory ++ "\n" ++
    "    versionRange=\"" ++ d.versions ++ "\"\n" ++
    "    ordering=\"BEFORE\"\n" ++
    "    side=\"BOTH\""

/-- The blocks of the dependencies of the mod with an id, if the brand reads
TOML. -/
def tomlBlocks? (brand : Brand) (modId : String) (dependencies : List Dependency) :
    Option String :=
  (mandatoryLine? brand).map fun mandatory =>
    "\n\n".intercalate (dependencies.map (tomlBlock modId mandatory))

end ModBuild.Variables
