import ModBuild.Descriptor.Parse
import ModBuild.Encoding.Utf8
import ModBuild.Files.Access
import ModBuild.Text.Line
import ModBuild.Yaml.Read

/-!
# Loading a descriptor

A descriptor lies in a file, as YAML in UTF-8.  Messages about it start with the
path of the file.
-/

namespace ModBuild.Descriptor

/-- The descriptor in the text of a file. -/
def ofText (path : Path) (text : List Char) : Except Failure Descriptor :=
  match Yaml.read (Text.unifyBreaks text) with
  | .error .notYaml => .error (.notYaml path)
  | .error (.scalar fault) => .error (.scalar fault)
  | .ok document => (ofValue document).mapError (.malformed path.toString)

/-- The descriptor in the octets of a file. -/
def ofOctets (path : Path) (octets : List UInt8) : Except Failure Descriptor :=
  match Encoding.Utf8.decode octets with
  | .error e => .error (.notText e)
  | .ok text => ofText path text

/-- The descriptor in a file. -/
def load (path : Path) : Action Descriptor := do
  match ← Action.attempt (Action.readFile path) with
  | .error (.os (.notFound _)) => throw (.descriptorNotFound path)
  | .error (.os cause) => throw (.descriptorUnreadable cause)
  | .error f => throw f
  | .ok octets => Action.ofExcept (ofOctets path octets)

end ModBuild.Descriptor
