import ModBuild.Descriptor.Fault
import ModBuild.Encoding.Basic
import ModBuild.Files.Error
import ModBuild.Variables.Build
import ModBuild.Yaml.Fault

/-!
# Failures

Everything that can stop a run, by its cause.  Some causes have a cause of their
own.  The *kind* of a failure says what a caller can do about it: most kinds are
failures of the build and are reported, and the others show that something
outside the build is wrong.
-/

namespace ModBuild

/-- Why a run of Git failed. -/
inductive GitFault where
  | notInstalled
  | timedOut (arguments : List String)
  /-- It ended with a code other than zero. -/
  | failed (arguments : List String) (errors : String)
  | noRevision (tree : Path)
  /-- Any other reason, in words. -/
  | other (message : String)
deriving DecidableEq, Repr

/-- The message for a failed run of Git. -/
def GitFault.message : GitFault → String
  | .notInstalled => "git executable not found on PATH"
  | .timedOut arguments => "Git command timed out: git " ++ " ".intercalate arguments
  | .failed arguments errors =>
    "git " ++ " ".intercalate arguments ++ ": " ++ Text.trimmed errors
  | .noRevision tree => "git rev-parse returned no revision for '" ++ tree.toString ++ "'"
  | .other message => message

/-- Why a run stopped. -/
inductive Failure where
  /-- The text names no brand. -/
  | unknownLoader (text : String)
  /-- The document with a label is no descriptor. -/
  | malformed (label : String) (fault : Fault)
  | descriptorNotFound (path : Path)
  /-- The document cannot be read. -/
  | descriptorUnreadable (cause : OsError)
  /-- The document is no YAML. -/
  | notYaml (path : Path)
  /-- A scalar of the document has no value. -/
  | scalar (fault : Yaml.ScalarFault)
  /-- The variables cannot be made. -/
  | build (cause : Variables.BuildError)
  /-- The build file has no version line. -/
  | noVersionLine (lead : String) (path : Path)
  /-- The build file cannot be read. -/
  | buildFileUnreadable (path : Path) (cause : Failure)
  /-- The repository cannot be cloned. -/
  | notCloned (url branch : String) (cause : Failure)
  /-- The revision of a tree cannot be told. -/
  | revisionUnknown (tree : Path) (cause : Failure)
  /-- No temporary directory can be made. -/
  | tempNotMade (cause : Failure)
  /-- The temporary directory cannot be removed. -/
  | tempNotRemoved (path : Path) (cause : Failure)
  /-- The binary is not where it should be. -/
  | artifactNotFound (path : Path)
  /-- The binary cannot be opened. -/
  | artifactNotOpened (path : Path) (cause : OsError)
  /-- The download took too long to start. -/
  | downloadTimedOut (url : String) (seconds : Int)
  /-- The download did not start. -/
  | downloadFailed (url reason : String)
  | downloadInterrupted (url reason : String)
  /-- A run of Git failed. -/
  | git (fault : GitFault)
  | os (cause : OsError)
  /-- A path holds the character U+0000. -/
  | nullInPath
  | notText (e : Encoding.DecodeError)
  | notEncodable (e : Encoding.EncodeError)
  /-- A stream is used after it was closed. -/
  | closed (use : String)
  /-- An operand of the command line is missing between two separators. -/
  | noOperand
  /-- Something that nothing here knows about, in words. -/
  | foreign (message : String)
deriving DecidableEq, Repr

namespace Failure

/-- What a failure is about. -/
inductive Kind where
  | malformedDescriptor
  | missingField
  /-- A version without an API version. -/
  | invalidVersion
  /-- A build file without a version line. -/
  | versionNotFound
  | sourceUnavailable
  | tempDir
  /-- A binary that is not there. -/
  | artifactNotFound
  | network
  /-- A binary that cannot be opened. -/
  | artifactIo
  | git
  | os
  /-- A value that is out of range. -/
  | value
  /-- Octets that are no text. -/
  | decode
  /-- A text without octets. -/
  | encode
  /-- A word that is in no list of words. -/
  | key
  /-- A text that is too short. -/
  | index
  /-- A text of the wrong form. -/
  | attribute
  /-- A number that is too large. -/
  | overflow
  /-- Something that is no text. -/
  | type
deriving DecidableEq, Repr

/-- The kind of a failure. -/
def kind : Failure → Kind
  | malformed .. | descriptorNotFound _ | descriptorUnreadable _ | notYaml _ =>
    .malformedDescriptor
  | scalar fault =>
    match fault.kind with
    | .value => .value
    | .key => .key
    | .index => .index
    | .attribute => .attribute
    | .overflow => .overflow
    | .type => .type
  | build (.missingField _) => .missingField
  | build (.invalidVersion _) => .invalidVersion
  | build (.table _) => .value
  | noVersionLine .. => .versionNotFound
  | buildFileUnreadable .. | notCloned .. | revisionUnknown .. => .sourceUnavailable
  | tempNotMade _ | tempNotRemoved .. => .tempDir
  | artifactNotFound _ => .artifactNotFound
  | artifactNotOpened .. => .artifactIo
  | downloadTimedOut .. | downloadFailed .. | downloadInterrupted .. => .network
  | git _ => .git
  | os _ => .os
  | unknownLoader _ | nullInPath | closed _ | foreign _ => .value
  | noOperand => .type
  | notText _ => .decode
  | notEncodable _ => .encode

/-- Whether a kind is reported to the user.  A failure of the file system is
reported only by the commands that write files, and a failed run of Git only as
the cause of another failure. -/
def Kind.isReported : Kind → Bool
  | .git | .os | .key | .index | .attribute | .overflow | .type => false
  | _ => true

/-- The message of a failure. -/
def message : Failure → String
  | unknownLoader text => Brand.unknownMessage text
  | malformed label fault => fault.message label
  | descriptorNotFound path => "Descriptor file not found: " ++ path.toString
  | descriptorUnreadable cause => "Cannot read descriptor file: " ++ cause.message
  | notYaml path => "Invalid document in " ++ path.toString ++ ": " ++ Yaml.detail
  | scalar fault => fault.message
  | build cause => cause.message
  | noVersionLine lead path =>
    "No line starting with " ++ Text.quoted lead ++ " in '" ++ path.toString ++ "'"
  | buildFileUnreadable path cause =>
    "Cannot read '" ++ path.toString ++ "': " ++ cause.message
  | notCloned url branch cause =>
    "Unable to clone " ++ url ++ " at '" ++ branch ++ "': " ++ cause.message
  | revisionUnknown tree cause =>
    "Unable to determine the revision of '" ++ tree.toString ++ "': " ++ cause.message
  | tempNotMade cause => "Cannot create a temporary directory: " ++ cause.message
  | tempNotRemoved path cause =>
    "Cannot remove temporary directory '" ++ path.toString ++ "': " ++ cause.message
  | artifactNotFound path => "Unable to find UMC jar: " ++ path.toString
  | artifactNotOpened path cause => "Cannot open '" ++ path.toString ++ "': " ++ cause.message
  | downloadTimedOut url seconds =>
    "Download of " ++ url ++ " timed out after " ++ toString seconds ++ " seconds"
  | downloadFailed url reason => "Download of " ++ url ++ " failed: " ++ reason
  | downloadInterrupted url reason =>
    "Download of " ++ url ++ " was interrupted: " ++ reason
  | git fault => fault.message
  | os cause => cause.message
  | nullInPath => "embedded null byte"
  | notText e => e.message
  | notEncodable e => e.message
  | closed use => use
  | noOperand => "expected str, bytes or os.PathLike object, not list"
  | foreign message => message

end Failure

end ModBuild
