import ModBuild.Artifact.Locate
import ModBuild.Artifact.Stream
import ModBuild.Descriptor.Parse
import ModBuild.Template.Render
import ModBuild.Variables.Build

/-!
# Resolutions

A *resolution* is what a descriptor comes to for one variant: the version of the
core library, the place of its binary and the table of variables.  They are found
in this order, each from those before.
-/

namespace ModBuild

/-- What a build is made for and with. -/
structure Target where
  variant : Variant
  dialect : Dialect
  settings : Settings
  /-- The directory in which relative paths of the descriptor start, if it is not
  the working directory. -/
  workingDir : Option Path

/-- What a descriptor comes to. -/
structure Resolution where
  descriptor : Descriptor
  variant : Variant
  /-- The version of the core library. -/
  version : String
  /-- The binary of the core library. -/
  artifact : Artifact
  table : Variables.Table
  settings : Settings

namespace Resolution

/-- The part of the program that writes the log here. -/
def logger : String := "umcloader.resolution"

/-- Resolve a descriptor. -/
def ofDescriptor (source : SourceControl) (target : Target) (d : Descriptor) :
    Action Resolution := do
  let key := target.variant.key
  Action.write .debug logger ("Resolving " ++ d.mod.id ++ " for " ++ key)
  let version ← Version.resolve source target.settings target.workingDir d.core key
  let artifact ← Artifact.locate target.settings target.workingDir d.core key version
  match Variables.build target.dialect d target.variant version artifact with
  | .error cause => throw (.build cause)
  | .ok table =>
    Action.write .debug logger
      ("Resolved " ++ Text.decimal table.entries.length ++ " variables for " ++ key)
    return ⟨d, target.variant, version, artifact, table, target.settings⟩

/-- Resolve the descriptor that a document is. -/
def ofDocument (source : SourceControl) (target : Target) (document : Document.Value) :
    Action Resolution := do
  match Descriptor.ofValue document with
  | .error fault => throw (.malformed "<document>" fault)
  | .ok d => ofDescriptor source target d

/-- Replace the variables in a text. -/
def render (r : Resolution) (delimited : Bool) (text : String) : String :=
  Template.render delimited r.table.entries text

/-- Open the binary. -/
def openArtifact (r : Resolution) : Action Stream :=
  r.artifact.openStream r.settings.downloadTimeout

end Resolution

end ModBuild
