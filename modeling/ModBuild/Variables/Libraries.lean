import ModBuild.Descriptor.Basic

/-!
# Libraries in a build script

Three variables are about libraries, and all three list the same libraries in
the same order.  One declares where they come from: a single block for all flat
directories, and after it a line for each Maven repository.  One declares the
libraries themselves, a file by its path and any other by its coordinate.  One
moves the classes of those that are relocated.
-/

namespace ModBuild.Variables

/-- The text of some lines, with a line feed between two of them. -/
def joinLines (lines : List String) : String :=
  "\n".intercalate lines

/-- The block that declares directories. -/
def directoriesBlock (directories : List String) : String :=
  "\tflatDir \x7b\n\t\tdirs " ++ ", ".intercalate directories ++ "\n\t\x7d"

/-- The line that declares a Maven repository. -/
def repositoryLine (repository : String) : String :=
  "\tmaven \x7b url = \"" ++ repository ++ "\" \x7d"

/-- The repositories of some libraries. -/
def repositories (libraries : List Library) : String :=
  let directories := libraries.filterMap fun l => l.origin.directory?
  let maven := (libraries.filterMap fun l => l.origin.repository?).map repositoryLine
  joinLines (if directories = [] then maven else directoriesBlock directories :: maven)

/-- The line that declares a library. -/
def declarationLine (l : Library) : String :=
  "\t" ++ l.declaration ++
    match l.origin with
    | .file path => " files('" ++ path ++ "')"
    | _ => " '" ++ l.artifact ++ "'"

/-- The declarations of some libraries. -/
def declarations (libraries : List Library) : String :=
  joinLines (libraries.map declarationLine)

/-- The line that relocates the classes of a library. -/
def relocationLine (r : Relocation) : String :=
  "\trelocate '" ++ r.source ++ "', '" ++ r.target ++ "'"

/-- The relocations of some libraries. -/
def relocations (libraries : List Library) : String :=
  joinLines ((libraries.filterMap Library.relocation).map relocationLine)

end ModBuild.Variables
