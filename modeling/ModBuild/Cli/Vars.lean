import ModBuild.Cli.Report

/-!
# Printing the variables

Every variable is printed on a line, as its name, an equals sign and its value.
-/

namespace ModBuild.Cli

/-- The line of a variable. -/
def variableLine (v : String × String) : String :=
  v.1 ++ "=" ++ v.2 ++ "\n"

/-- Print the variables. -/
def printVariables (r : Request) (environment : List (String × String)) : Action Report := do
  match ← Action.attempt (r.resolve environment) with
  | .error f => reportFailure f
  | .ok resolution =>
    return ⟨0, String.join (resolution.table.entries.map variableLine), ""⟩

end ModBuild.Cli
