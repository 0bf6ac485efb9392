import ModBuild.Encoding.Utf8
import ModBuild.Files.Access
import ModBuild.Text.Line

/-!
# The version line

A build file assigns the version on a line of its own.  It is the first line
with a given start.  What follows the start is the version, without quotation
marks and without blanks around it.
-/

namespace ModBuild.Version

/-- The version that is written behind the start of a line. -/
def ofRest (rest : List Char) : List Char :=
  Text.trim (rest.filter (· ≠ '"'))

/-- The version in the first of some lines that has a given start. -/
def ofLines? (start : List Char) (lines : List (List Char)) : Option (List Char) :=
  (lines.find? start.isPrefixOf).map fun line => ofRest (line.drop start.length)

/-- The version in a text. -/
def ofText? (start text : List Char) : Option (List Char) :=
  ofLines? start (Text.lines (Text.unifyBreaks text))

/-- Read the version line of a file.  Only a failure of the file system counts as
a failure to read it. -/
def readLine (file : Path) (start : String) : Action String := do
  match ← Action.attempt (Action.readFile file) with
  | .error (.os cause) => throw (.buildFileUnreadable file (.os cause))
  | .error f => throw f
  | .ok octets =>
    match Encoding.Utf8.decode octets with
    | .error e => throw (.notText e)
    | .ok text =>
      match ofText? start.toList text with
      | some version => return .ofList version
      | none => throw (.noVersionLine start file)

example : ofText? "v = ".toList "a\r\nv = \"1.2\" \nv = 3".toList = some "1.2".toList := by
  decide +kernel

end ModBuild.Version
