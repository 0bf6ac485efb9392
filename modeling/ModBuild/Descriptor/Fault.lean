import ModBuild.Document.Value
import ModBuild.Text.Quoted

/-!
# Faults of a document

A document that is no descriptor has a *first fault*: a place in the document
and what is wrong there.  The message names the document by a label, then the
place, then the problem.
-/

namespace ModBuild

/-- A place in a document. -/
inductive Place where
  | document
  | mod
  /-- The dependencies of the mod. -/
  | dependencies
  /-- The dependency with a key. -/
  | dependency (key : Document.Key)
  /-- The library at a position of the list. -/
  | library (index : Nat)
  | core
  | integration
deriving DecidableEq, Repr

/-- What is wrong at a place. -/
inductive Problem where
  /-- The value is no mapping. -/
  | notMapping
  | missing (field : String)
  /-- A field is no text. -/
  | notText (field : String)
  /-- The id of a dependency is no text. -/
  | idNotText
  /-- The libraries are no list. -/
  | librariesNotList
  /-- A relocation rule is not made of two packages. -/
  | relocation (rule : String)
  /-- The variants of a library are no list of texts. -/
  | onlyInNotTexts
  /-- The type of a repository is unknown. -/
  | repositoryType (found : String)
  /-- A file library names a repository. -/
  | repositoryOfFile
  /-- A library from a repository names a path. -/
  | pathAndRepository
deriving DecidableEq, Repr

/-- The first fault of a document. -/
structure Fault where
  place : Place
  problem : Problem
deriving DecidableEq, Repr

/-- The types of a repository, as documents write them. -/
def repositoryTypes : List String := ["URL", "Dir", "File"]

/-- The text of a place, below the label of its document. -/
def Place.text : Place → String
  | .document => ""
  | .mod => ": mod"
  | .dependencies => ": mod: dependencies"
  | .dependency key => ": mod: dependencies." ++ key.shown
  | .library index => ": mod: libraries[" ++ Text.decimal index ++ "]"
  | .core => ": umc"
  | .integration => ": integration"

/-- The text of a problem, after the text of its place. -/
def Problem.text : Problem → String
  | .notMapping => " must be a mapping"
  | .missing field => ": missing required field '" ++ field ++ "'"
  | .notText field => ": '" ++ field ++ "' must be a string"
  | .idNotText => ": dependency id must be a string"
  | .librariesNotList => ": 'libraries' must be a list"
  | .relocation rule =>
    ": relocation needs two paths separated by a '|', got " ++ Text.quoted rule
  | .onlyInNotTexts => ": 'onlyIn' must be a list of strings"
  | .repositoryType found =>
    ": 'repositoryType' must be one of " ++ ", ".intercalate repositoryTypes ++ ", got " ++
      Text.quoted found
  | .repositoryOfFile => ": a file library cannot declare a 'repository'"
  | .pathAndRepository => ": must specify either 'path' or 'repository', not both"

/-- The message of a fault in the document with a label. -/
def Fault.message (label : String) (f : Fault) : String :=
  label ++ f.place.text ++ f.problem.text

example : Fault.message "d" ⟨.library 3, .missing "type"⟩ =
    "d: mod: libraries[3]: missing required field 'type'" := by decide +kernel

end ModBuild
