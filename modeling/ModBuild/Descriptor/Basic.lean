/-!
# Descriptors

A descriptor says what a mod is, which build of the core library it stands on
and, optionally, where a companion integration lives.  Dependencies and
libraries keep the order of the document.

A library comes from one of three origins: a Maven repository, a flat directory
or a single file.  It may be restricted to some variants, a variant being named
by its key.
-/

namespace ModBuild

/-- A mod that must be present, and the range of versions that will do. -/
structure Dependency where
  /-- The id of the mod. -/
  id : String
  versions : String
deriving DecidableEq, Repr

/-- The move of the classes of a library from one package to another. -/
structure Relocation where
  /-- The package that the classes are in. -/
  source : String
  /-- The package that they go to. -/
  target : String
deriving DecidableEq, Repr

/-- Where a library comes from. -/
inductive Origin where
  /-- A Maven repository, by its URL. -/
  | maven (repository : String)
  | flatDir (directory : String)
  | file (path : String)
deriving DecidableEq, Repr

/-- The directory that an origin names. -/
def Origin.directory? : Origin → Option String
  | .flatDir directory => some directory
  | _ => none

/-- The Maven repository that an origin names. -/
def Origin.repository? : Origin → Option String
  | .maven repository => some repository
  | _ => none

/-- A library that a mod brings along. -/
structure Library where
  /-- The coordinate of the library. -/
  artifact : String
  /-- The dependency declaration of the build script that takes it up. -/
  declaration : String
  /-- The relocation of its classes. -/
  relocation : Option Relocation
  /-- The keys of the variants it is for, or none if it is for all. -/
  onlyIn : List String
  origin : Origin
deriving DecidableEq, Repr

/-- Whether a library is for the variant with a key. -/
def Library.AppliesTo (l : Library) (variantKey : String) : Prop :=
  l.onlyIn = [] ∨ variantKey ∈ l.onlyIn

instance (l : Library) (variantKey : String) : Decidable (l.AppliesTo variantKey) :=
  inferInstanceAs (Decidable (_ ∨ _))

/-- What a mod is and what it depends on. -/
structure Mod where
  /-- The package of the generated class. -/
  pkg : String
  /-- The name of the generated class. -/
  className : String
  /-- The name that players see. -/
  name : String
  id : String
  version : String
  /-- The dependencies, in the order of the document. -/
  dependencies : List Dependency
  /-- The libraries, in the order of the document. -/
  libraries : List Library
deriving DecidableEq, Repr

/-- The version that stands for the newest commit of a source tree. -/
def latestVersion : String := "latest"

/-- The build of the core library that a mod stands on. -/
structure Core where
  version : String
  /-- The path of a local checkout. -/
  path : Option String
deriving DecidableEq, Repr

/-- Whether the version is read off a source tree. -/
def Core.isLatest (c : Core) : Bool :=
  c.version == latestVersion

/-- The local checkout, which an empty path does not name. -/
def Core.checkout? (c : Core) : Option String :=
  c.path.filter (· ≠ "")

/-- Where a companion integration lives. -/
structure Integration where
  repository : String
  branch : String
  path : String
deriving DecidableEq, Repr

/-- A build descriptor. -/
structure Descriptor where
  mod : Mod
  core : Core
  /-- The integration, if there is one. -/
  integration : Option Integration
deriving DecidableEq, Repr

end ModBuild
