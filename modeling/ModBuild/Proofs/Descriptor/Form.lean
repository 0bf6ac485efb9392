import Mathlib.Data.List.Forall2
import ModBuild.Descriptor.Parse
import ModBuild.Proofs.Descriptor.Relocation

/-!
# The form of a descriptor document

Which documents are descriptors, and which descriptor each of them is, told
without the order in which a document is read.  `Form` is the condition on every
part of a document.  `Describes` relates a part to what it stands for.

A field may be absent, null or of a wrong type, and the fields differ in which of
these they allow.  `Lacks` is absent or null.
-/

namespace ModBuild

open Document

namespace Section

/-- A field holds the given text. -/
def Has (s : Section) (field text : String) : Prop :=
  s.get? field = some (.text text)

/-- A field holds a text. -/
def HasText (s : Section) (field : String) : Prop :=
  ∃ text, s.Has field text

/-- A field is absent or null. -/
def Lacks (s : Section) (field : String) : Prop :=
  s.get? field = none ∨ s.get? field = some .null

/-- A field that is absent or null, or holds the given text. -/
def HasOptional (s : Section) (field : String) (text : Option String) : Prop :=
  (s.Lacks field ∧ text = none) ∨ ∃ t, s.Has field t ∧ text = some t

end Section

/-! ## Dependencies -/

/-- The id is a text.  The value is a text or a mapping with a text in it. -/
def Dependency.Form (e : Key × Value) : Prop :=
  (∃ id, e.1 = .text id) ∧
    ((∃ versions, e.2 = .text versions) ∨
      ∃ s : Section, e.2 = .map s ∧ s.HasText "versions")

/-- An entry stands for a dependency. -/
def Dependency.Describes (e : Key × Value) (d : Dependency) : Prop :=
  e.1 = .text d.id ∧
    (e.2 = .text d.versions ∨ ∃ s : Section, e.2 = .map s ∧ s.Has "versions" d.versions)

/-! ## Libraries -/

/-- The repository type of a library.  Where none is given, the presence of a path
decides, whatever the path holds. -/
def Library.typeOf (s : Section) : String :=
  match s.get? "repositoryType" with
  | some (.text type) => type
  | _ => if (s.get? "path").isSome then "File" else "URL"

/-- The conditions on the entry of a library. -/
structure Library.Form (s : Section) : Prop where
  artifact : s.HasText "artifact"
  type : s.HasText "type"
  relocate : s.Lacks "relocate" ∨
    ∃ rule, s.Has "relocate" rule ∧ ∃ left right, Relocation.IsRule rule left right
  onlyIn : s.get? "onlyIn" = none ∨
    ∃ names : List String, s.get? "onlyIn" = some (.list (names.map .text))
  repositoryType : s.Lacks "repositoryType" ∨
    s.Has "repositoryType" "URL" ∨ s.Has "repositoryType" "Dir" ∨ s.Has "repositoryType" "File"
  file : Library.typeOf s = "File" → s.HasText "path" ∧ s.get? "repository" = none
  repository : Library.typeOf s ≠ "File" → s.HasText "repository" ∧ s.get? "path" = none

/-- An entry names an origin, and no place of another kind. -/
def Origin.Describes (s : Section) : Origin → Prop
  | .maven r => Library.typeOf s = "URL" ∧ s.Has "repository" r ∧ s.get? "path" = none
  | .flatDir r => Library.typeOf s = "Dir" ∧ s.Has "repository" r ∧ s.get? "path" = none
  | .file p => Library.typeOf s = "File" ∧ s.Has "path" p ∧ s.get? "repository" = none

/-- An entry stands for a library. -/
structure Library.Describes (s : Section) (l : Library) : Prop where
  artifact : s.Has "artifact" l.artifact
  declaration : s.Has "type" l.declaration
  relocation : (s.Lacks "relocate" ∧ l.relocation = none) ∨
    ∃ rule left right, s.Has "relocate" rule ∧ Relocation.IsRule rule left right ∧
      l.relocation = some ⟨Text.trimmed left, Text.trimmed right⟩
  onlyIn : (s.get? "onlyIn" = none ∧ l.onlyIn = []) ∨
    s.get? "onlyIn" = some (.list (l.onlyIn.map .text))
  repositoryType : s.Lacks "repositoryType" ∨ s.HasText "repositoryType"
  origin : l.origin.Describes s

/-- A value stands for a library. -/
def Library.DescribedBy (v : Value) (l : Library) : Prop :=
  ∃ s : Section, v = .map s ∧ Library.Describes s l

/-! ## Sections -/

/-- The conditions on the mod. -/
structure Mod.Form (s : Section) : Prop where
  texts : ∀ field ∈ ["pkg", "cls", "name", "id", "version"], s.HasText field
  dependencies : ∃ es : Section, s.get? "dependencies" = some (.map es) ∧
    ∀ e ∈ es, Dependency.Form e
  libraries : s.get? "libraries" = none ∨
    ∃ vs, s.get? "libraries" = some (.list vs) ∧
      ∀ v ∈ vs, ∃ l : Section, v = .map l ∧ Library.Form l

/-- A section stands for a mod.  Dependencies and libraries keep their order. -/
structure Mod.Describes (s : Section) (m : Mod) : Prop where
  pkg : s.Has "pkg" m.pkg
  className : s.Has "cls" m.className
  name : s.Has "name" m.name
  id : s.Has "id" m.id
  version : s.Has "version" m.version
  dependencies : ∃ es : Section, s.get? "dependencies" = some (.map es) ∧
    List.Forall₂ Dependency.Describes es m.dependencies
  libraries : (s.get? "libraries" = none ∧ m.libraries = []) ∨
    ∃ vs, s.get? "libraries" = some (.list vs) ∧
      List.Forall₂ Library.DescribedBy vs m.libraries

/-- The conditions on the core library. -/
structure Core.Form (s : Section) : Prop where
  version : s.HasText "version"
  path : s.Lacks "path" ∨ s.HasText "path"

/-- A section stands for a core library. -/
structure Core.Describes (s : Section) (c : Core) : Prop where
  version : s.Has "version" c.version
  path : s.HasOptional "path" c.path

/-- The conditions on the integration. -/
def Integration.Form (s : Section) : Prop :=
  ∀ field ∈ ["repo", "branch", "path"], s.HasText field

/-- A section stands for an integration. -/
structure Integration.Describes (s : Section) (i : Integration) : Prop where
  repository : s.Has "repo" i.repository
  branch : s.Has "branch" i.branch
  path : s.Has "path" i.path

/-! ## Documents -/

/-- The conditions on a document. -/
def Descriptor.Form (v : Value) : Prop :=
  ∃ s mod core : Section, v = .map s ∧
    s.get? "mod" = some (.map mod) ∧ Mod.Form mod ∧
    s.get? "umc" = some (.map core) ∧ Core.Form core ∧
    (s.get? "integration" = none ∨
      ∃ i : Section, s.get? "integration" = some (.map i) ∧ Integration.Form i)

/-- A document stands for a descriptor. -/
def Descriptor.Describes (v : Value) (d : Descriptor) : Prop :=
  ∃ s mod core : Section, v = .map s ∧
    s.get? "mod" = some (.map mod) ∧ Mod.Describes mod d.mod ∧
    s.get? "umc" = some (.map core) ∧ Core.Describes core d.core ∧
    ((s.get? "integration" = none ∧ d.integration = none) ∨
      ∃ (i : Section) (j : Integration), s.get? "integration" = some (.map i) ∧
        Integration.Describes i j ∧ d.integration = some j)

end ModBuild
