import ModBuild.Descriptor.Fault
import ModBuild.Descriptor.Relocation

/-!
# Reading a descriptor off a document

The document is read in a fixed order, and the first fault in that order is the
answer if there is one: the document itself; the mod, with its dependencies in
order, its libraries in order and then its own fields; the core library; the
integration.  Keys that no rule speaks of are ignored.
-/

namespace ModBuild

open Document

/-- The entries of a mapping. -/
abbrev Section := List (Key × Value)

namespace Section

/-- The value of a field. -/
def get? (s : Section) (field : String) : Option Value :=
  Entries.get? (.text field) s

/-- The value of a field that must be there. -/
def require (s : Section) (place : Place) (field : String) : Except Fault Value :=
  match s.get? field with
  | some v => .ok v
  | none => .error ⟨place, .missing field⟩

/-- The text of a field that must be there. -/
def text (s : Section) (place : Place) (field : String) : Except Fault String := do
  match (← s.require place field).text? with
  | some t => .ok t
  | none => .error ⟨place, .notText field⟩

/-- The text of a field that may be absent or null. -/
def optionalText (s : Section) (place : Place) (field : String) :
    Except Fault (Option String) :=
  match s.get? field with
  | none | some .null => .ok none
  | some _ => some <$> s.text place field

/-- The entries of a value that must be a mapping. -/
def ofValue (place : Place) (v : Value) : Except Fault Section :=
  match v.entries? with
  | some es => .ok es
  | none => .error ⟨place, .notMapping⟩

end Section

/-- Read a dependency, whose value is a range or a mapping that holds one. -/
def Dependency.ofEntry (entry : Key × Value) : Except Fault Dependency :=
  let place := Place.dependency entry.1
  match entry.1 with
  | .text id =>
    match entry.2 with
    | .text versions => .ok ⟨id, versions⟩
    | v => do
      let s ← Section.ofValue place v
      return ⟨id, ← s.text place "versions"⟩
  | _ => .error ⟨place, .idNotText⟩

/-- Read the relocation of a library. -/
def Library.relocationOf (place : Place) (s : Section) : Except Fault (Option Relocation) := do
  match ← s.optionalText place "relocate" with
  | none => return none
  | some rule =>
    match Relocation.parse? rule with
    | some r => return some r
    | none => .error ⟨place, .relocation rule⟩

/-- The texts that the items of a list are, if all of them are texts. -/
def allTexts? : List Value → Option (List String)
  | [] => some []
  | .text s :: vs => (s :: ·) <$> allTexts? vs
  | _ :: _ => none

/-- Read the variants that a library is for. -/
def Library.onlyInOf (place : Place) (s : Section) : Except Fault (List String) :=
  match s.get? "onlyIn" with
  | none => .ok []
  | some v =>
    match v.items?.bind allTexts? with
    | some names => .ok names
    | none => .error ⟨place, .onlyInNotTexts⟩

/-- Read the origin of a library.  Without a repository type, a path makes it a
file, and anything else a Maven repository. -/
def Library.originOf (place : Place) (s : Section) : Except Fault Origin := do
  let hasPath := (s.get? "path").isSome
  let type := (← s.optionalText place "repositoryType").getD (if hasPath then "File" else "URL")
  if type ∉ repositoryTypes then
    .error ⟨place, .repositoryType type⟩
  else if type = "File" then
    if (s.get? "repository").isSome then
      .error ⟨place, .repositoryOfFile⟩
    else
      return .file (← s.text place "path")
  else if hasPath then
    .error ⟨place, .pathAndRepository⟩
  else
    let repository ← s.text place "repository"
    return if type = "Dir" then .flatDir repository else .maven repository

/-- Read the library at a position of the list. -/
def Library.ofValue (index : Nat) (v : Value) : Except Fault Library := do
  let place := Place.library index
  let s ← Section.ofValue place v
  let artifact ← s.text place "artifact"
  let declaration ← s.text place "type"
  let relocation ← Library.relocationOf place s
  let onlyIn ← Library.onlyInOf place s
  let origin ← Library.originOf place s
  return { artifact, declaration, relocation, onlyIn, origin }

/-- Read the libraries from a position on. -/
def Library.ofValues (index : Nat) : List Value → Except Fault (List Library)
  | [] => .ok []
  | v :: vs => do
    let l ← Library.ofValue index v
    let ls ← Library.ofValues (index + 1) vs
    return l :: ls

/-- Read the dependencies of a mod. -/
def Dependency.ofEntries : Section → Except Fault (List Dependency)
  | [] => .ok []
  | e :: es => do
    let d ← Dependency.ofEntry e
    let ds ← Dependency.ofEntries es
    return d :: ds

/-- Read the libraries of a mod. -/
def Library.allOf (s : Section) : Except Fault (List Library) :=
  match s.get? "libraries" with
  | none => .ok []
  | some v =>
    match v.items? with
    | some vs => Library.ofValues 0 vs
    | none => .error ⟨.mod, .librariesNotList⟩

/-- Read a mod. -/
def Mod.ofSection (s : Section) : Except Fault Mod := do
  let dependencies ←
    Dependency.ofEntries (← Section.ofValue .dependencies (← s.require .mod "dependencies"))
  let libraries ← Library.allOf s
  let pkg ← s.text .mod "pkg"
  let className ← s.text .mod "cls"
  let name ← s.text .mod "name"
  let id ← s.text .mod "id"
  let version ← s.text .mod "version"
  return { pkg, className, name, id, version, dependencies, libraries }

/-- Read a core library. -/
def Core.ofSection (s : Section) : Except Fault Core := do
  let version ← s.text .core "version"
  let path ← s.optionalText .core "path"
  return { version, path }

/-- Read an integration. -/
def Integration.ofSection (s : Section) : Except Fault Integration := do
  let repository ← s.text .integration "repo"
  let branch ← s.text .integration "branch"
  let path ← s.text .integration "path"
  return { repository, branch, path }

/-- Read the integration of a document that may have none. -/
def Integration.of? (s : Section) : Except Fault (Option Integration) :=
  match s.get? "integration" with
  | none => .ok none
  | some v => do
    let i ← Integration.ofSection (← Section.ofValue .integration v)
    return some i

/-- Read a descriptor. -/
def Descriptor.ofValue (document : Value) : Except Fault Descriptor := do
  let s ← Section.ofValue .document document
  let mod ← Mod.ofSection (← Section.ofValue .mod (← s.require .document "mod"))
  let core ← Core.ofSection (← Section.ofValue .core (← s.require .document "umc"))
  let integration ← Integration.of? s
  return { mod, core, integration }

end ModBuild
