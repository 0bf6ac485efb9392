import ModBuild.Proofs.Descriptor.Form

/-!
# The elements of a document

A document has *elements*, and they come in a fixed order: the document itself; the mod, with
its dependencies in order, its libraries in order and then its own fields; the core library;
the integration.  An element is what one rule looks at, and it holds nothing else of the
document, so whatever changes elsewhere leaves it as it is.  Its fault follows from it alone
(`Element.fault?`).

Where a part is missing or of a wrong form, it has no elements, and those of the next part
follow.
-/

namespace ModBuild

open Document

/-! ## Elements -/

/-- The form of something that may be absent. -/
inductive Shape where
  | absent
  | mapping
  | list
  | other
deriving DecidableEq, Repr

/-- The form of what a document has at a place. -/
def Shape.of : Option Value → Shape
  | none => .absent
  | some (.map _) => .mapping
  | some (.list _) => .list
  | some _ => .other

/-- What one rule looks at. -/
inductive Element where
  /-- Something that must be a mapping. -/
  | whole (place : Place) (found : Shape)
  /-- A field that must be there and be a mapping. -/
  | part (above : Place) (field : String) (place : Place) (found : Shape)
  /-- A field that must be a mapping if it is there. -/
  | optionalPart (place : Place) (found : Shape)
  | dependency (key : Key) (value : Value)
  /-- The field of the libraries, which must be a list if it is there. -/
  | libraries (found : Shape)
  /-- A field that must hold a text. -/
  | text (place : Place) (field : String) (found : Option Value)
  /-- A field that may be absent or null and else must hold a text. -/
  | optionalText (place : Place) (field : String) (found : Option Value)
  | relocation (place : Place) (found : Option Value)
  /-- The variants that a library is for. -/
  | onlyIn (place : Place) (found : Option Value)
  | repositoryType (place : Place) (found : Option Value)
  /-- What a library of a type has for a path and for a repository. -/
  | origin (place : Place) (type : String) (path repository : Option Value)

namespace Element

/-- The fault of a field that must hold a text. -/
def textFault (place : Place) (field : String) : Option Value → Option Fault
  | none => some ⟨place, .missing field⟩
  | some (.text _) => none
  | some _ => some ⟨place, .notText field⟩

/-- The fault of a field that may be absent or null and else must hold a text. -/
def optionalTextFault (place : Place) (field : String) : Option Value → Option Fault
  | none | some .null => none
  | found => textFault place field found

/-- The fault of a relocation, which must be a rule if it is a text. -/
def relocationFault (place : Place) : Option Value → Option Fault
  | some (.text rule) =>
    if (Relocation.parse? rule).isSome then none else some ⟨place, .relocation rule⟩
  | found => optionalTextFault place "relocate" found

/-- The fault of the variants of a library. -/
def onlyInFault (place : Place) : Option Value → Option Fault
  | none => none
  | some v =>
    if (v.items?.bind allTexts?).isSome then none else some ⟨place, .onlyInNotTexts⟩

/-- The fault of a repository type, which must be a known one if it is a text. -/
def repositoryTypeFault (place : Place) : Option Value → Option Fault
  | some (.text type) =>
    if type ∈ repositoryTypes then none else some ⟨place, .repositoryType type⟩
  | found => optionalTextFault place "repositoryType" found

/-- The fault of an element, if it has one. -/
def fault? : Element → Option Fault
  | whole place found => if found = .mapping then none else some ⟨place, .notMapping⟩
  | part above field place found =>
    match found with
    | .absent => some ⟨above, .missing field⟩
    | .mapping => none
    | _ => some ⟨place, .notMapping⟩
  | optionalPart place found =>
    if found = .absent ∨ found = .mapping then none else some ⟨place, .notMapping⟩
  | dependency key value =>
    match key, value with
    | .text _, .text _ => none
    | .text _, .map s => textFault (.dependency key) "versions" (Section.get? s "versions")
    | .text _, _ => some ⟨.dependency key, .notMapping⟩
    | _, _ => some ⟨.dependency key, .idNotText⟩
  | libraries found =>
    if found = .absent ∨ found = .list then none else some ⟨.mod, .librariesNotList⟩
  | text place field found => textFault place field found
  | optionalText place field found => optionalTextFault place field found
  | relocation place found => relocationFault place found
  | onlyIn place found => onlyInFault place found
  | repositoryType place found => repositoryTypeFault place found
  | origin place type path repository =>
    if type = "File" then
      if repository.isSome then some ⟨place, .repositoryOfFile⟩ else textFault place "path" path
    else if path.isSome then
      some ⟨place, .pathAndRepository⟩
    else
      textFault place "repository" repository

end Element

/-- The fault of the first of some elements that has one. -/
def firstFault (es : List Element) : Option Fault :=
  es.findSome? Element.fault?

/-! ## The order of the elements -/

/-- The elements of a section that must hold texts in some fields. -/
def Section.textElements (s : Section) (place : Place) (fields : List String) : List Element :=
  fields.map fun field => .text place field (s.get? field)

/-- The elements of a library at a position of the list. -/
def Library.elements (index : Nat) (v : Value) : List Element :=
  let place := Place.library index
  .whole place (.of (some v)) ::
    match v with
    | .map s =>
      Section.textElements s place ["artifact", "type"] ++
        [.relocation place (Section.get? s "relocate"), .onlyIn place (Section.get? s "onlyIn"),
          .repositoryType place (Section.get? s "repositoryType"),
          .origin place (Library.typeOf s) (Section.get? s "path")
            (Section.get? s "repository")]
    | _ => []

/-- The elements of the libraries from a position on. -/
def Library.elementsFrom (index : Nat) : List Value → List Element
  | [] => []
  | v :: vs => Library.elements index v ++ Library.elementsFrom (index + 1) vs

/-- The elements of the dependencies of a mod. -/
def Dependency.elements (s : Section) : List Element :=
  let found := s.get? "dependencies"
  .part .mod "dependencies" .dependencies (.of found) ::
    match found with
    | some (.map es) => es.map fun e => .dependency e.1 e.2
    | _ => []

/-- The elements of all libraries of a mod. -/
def Library.allElements (s : Section) : List Element :=
  let found := s.get? "libraries"
  .libraries (.of found) ::
    match found with
    | some (.list vs) => Library.elementsFrom 0 vs
    | _ => []

/-- The elements of the mod of a document. -/
def Mod.elements (s : Section) : List Element :=
  let found := s.get? "mod"
  .part .document "mod" .mod (.of found) ::
    match found with
    | some (.map m) =>
      Dependency.elements m ++ (Library.allElements m ++
        Section.textElements m .mod ["pkg", "cls", "name", "id", "version"])
    | _ => []

/-- The elements of the core library of a document. -/
def Core.elements (s : Section) : List Element :=
  let found := s.get? "umc"
  .part .document "umc" .core (.of found) ::
    match found with
    | some (.map c) =>
      [.text .core "version" (Section.get? c "version"),
        .optionalText .core "path" (Section.get? c "path")]
    | _ => []

/-- The elements of the integration of a document. -/
def Integration.elements (s : Section) : List Element :=
  let found := s.get? "integration"
  .optionalPart .integration (.of found) ::
    match found with
    | some (.map i) => Section.textElements i .integration ["repo", "branch", "path"]
    | _ => []

/-- The elements of a document. -/
def Descriptor.elements (v : Value) : List Element :=
  .whole .document (.of (some v)) ::
    match v with
    | .map s => Mod.elements s ++ (Core.elements s ++ Integration.elements s)
    | _ => []

end ModBuild
