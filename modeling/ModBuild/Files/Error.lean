import ModBuild.Path
import ModBuild.Text.Quoted

/-!
# Errors of the file system

The file system refuses a request with a number, a wording and the path of the
request.
-/

namespace ModBuild

/-- Why the file system refuses a request. -/
inductive OsError where
  /-- Nothing is there, or on the way there. -/
  | notFound (path : Path)
  | exists (path : Path)
  /-- Something that has to be a directory is a file. -/
  | notDirectory (path : Path)
  | isDirectory (path : Path)
  /-- Source and target of a copy are one file. -/
  | sameFile (source target : Path)
  /-- Any other reason, in words. -/
  | other (message : String)
deriving DecidableEq, Repr

/-- A numbered message about a path. -/
def OsError.numbered (number wording : String) (path : Path) : String :=
  "[Errno " ++ number ++ "] " ++ wording ++ ": " ++ Text.quoted path.toString

/-- The message of a refusal. -/
def OsError.message : OsError → String
  | .notFound path => numbered "2" "No such file or directory" path
  | .exists path => numbered "17" "File exists" path
  | .notDirectory path => numbered "20" "Not a directory" path
  | .isDirectory path => numbered "21" "Is a directory" path
  | .sameFile source target =>
    "PosixPath(" ++ Text.quoted source.toString ++ ") and PosixPath(" ++
      Text.quoted target.toString ++ ") are the same file"
  | .other message => message

end ModBuild
