import ModBuild.Failure
import ModBuild.Proofs.Descriptor.Element
import ModBuild.Proofs.Descriptor.Reading

/-!
# The first fault of a document

A reading fails exactly with the fault of the first element that has one
(`Descriptor.ofValue_eq_error_iff`).  Every step of the reader has the elements of the part that
it reads (`faultOf_ofValue` and its like), and steps that follow each other have their elements
one after the other (`faultOf_bind`).

So what is behind the first fault does not matter, and the message names the library if the
fault is in one (`Descriptor.first_fault`).
-/

namespace ModBuild

open Document

/-! ## The fault of a reading -/

/-- The fault that a reading fails with. -/
def faultOf {α : Type} : Except Fault α → Option Fault
  | .error f => some f
  | .ok _ => none

@[simp] theorem faultOf_pure {α : Type} (a : α) : faultOf (pure a : Except Fault α) = none := rfl

@[simp] theorem firstFault_nil : firstFault [] = none := rfl

theorem firstFault_cons (e : Element) (es : List Element) :
    firstFault (e :: es) = e.fault?.or (firstFault es) := by
  rw [firstFault, List.findSome?_cons]
  cases e.fault? <;> rfl

@[simp] theorem firstFault_singleton (e : Element) : firstFault [e] = e.fault? := by
  rw [firstFault_cons, firstFault_nil, Option.or_none]

theorem firstFault_append (es ds : List Element) :
    firstFault (es ++ ds) = (firstFault es).or (firstFault ds) :=
  List.findSome?_append

/-- A reading in two steps has the elements of the first step and then those of the second. -/
theorem faultOf_bind {α β : Type} {x : Except Fault α} {k : α → Except Fault β}
    {es ds : List Element} (hx : faultOf x = firstFault es)
    (hk : ∀ a, x = .ok a → faultOf (k a) = firstFault ds) :
    faultOf (x >>= k) = firstFault (es ++ ds) := by
  rw [firstFault_append, ← hx]
  cases x with
  | error f => rfl
  | ok a => exact hk a rfl

/-- A reading whose first step is about one element has this element and then those of the
rest. -/
theorem faultOf_bind_cons {α β : Type} {x : Except Fault α} {k : α → Except Fault β}
    {e : Element} {es : List Element} (hx : faultOf x = e.fault?)
    (hk : ∀ a, x = .ok a → faultOf (k a) = firstFault es) :
    faultOf (x >>= k) = firstFault (e :: es) :=
  faultOf_bind (hx.trans (firstFault_singleton e).symm) hk

/-- What is made of a value that was read adds no fault. -/
theorem faultOf_map {α β : Type} (g : α → β) (x : Except Fault α) :
    faultOf (g <$> x) = faultOf x := by
  cases x <;> rfl

theorem faultOf_bind_pure {α β : Type} (g : α → β) (x : Except Fault α) :
    faultOf (do return g (← x)) = faultOf x := by
  cases x <;> rfl

namespace Section

theorem faultOf_ofValue (place : Place) (v : Value) :
    faultOf (ofValue place v) = (Element.whole place (.of (some v))).fault? := by
  cases v <;> rfl

theorem faultOf_text (s : Section) (place : Place) (field : String) :
    faultOf (s.text place field) = Element.textFault place field (s.get? field) := by
  rw [text, require]
  cases s.get? field with
  | none => rfl
  | some v => cases v <;> rfl

theorem faultOf_optionalText (s : Section) (place : Place) (field : String) :
    faultOf (s.optionalText place field) =
      Element.optionalTextFault place field (s.get? field) := by
  have htext := s.faultOf_text place field
  rw [optionalText]
  cases hfound : s.get? field with
  | none => rfl
  | some v =>
    rw [hfound] at htext
    cases v with
    | null => rfl
    | _ =>
      rw [faultOf_map, htext]
      rfl

/-- A part that must be there is looked up and read as a mapping before the rest is read. -/
theorem faultOf_part {α : Type} {s : Section} {above place : Place} {field : String}
    {k : Section → Except Fault α} {ds : Section → List Element} {more : List Element}
    (hk : ∀ t : Section, s.get? field = some (.map t) →
      faultOf (k t) = firstFault (ds t ++ more)) :
    faultOf (do k (← ofValue place (← s.require above field))) =
      firstFault ((.part above field place (.of (s.get? field)) ::
        match s.get? field with
        | some (.map t) => ds t
        | _ => []) ++ more) := by
  rw [require]
  cases hfound : s.get? field with
  | none => rfl
  | some v =>
    cases v with
    | map t => exact hk t hfound
    | _ => rfl

/-- Fields that must hold texts are read one after the other. -/
theorem faultOf_text_bind {α : Type} {s : Section} {place : Place} {field : String}
    {fields : List String} {k : String → Except Fault α}
    (hk : ∀ t, faultOf (k t) = firstFault (s.textElements place fields)) :
    faultOf (do k (← s.text place field)) = firstFault (s.textElements place (field :: fields)) :=
  faultOf_bind_cons (s.faultOf_text place field) fun t _ => hk t

end Section

/-! ## Libraries -/

namespace Library

variable {place : Place} {s : Section}

theorem faultOf_relocationOf :
    faultOf (relocationOf place s) = (Element.relocation place (s.get? "relocate")).fault? := by
  rw [relocationOf, Section.optionalText, Section.text, Section.require]
  cases hfound : s.get? "relocate" with
  | none => rfl
  | some v =>
    cases v with
    | text rule =>
      rw [Element.fault?, Element.relocationFault]
      simp only [Value.text?, Functor.map, bind, Except.bind, Except.map, pure, Except.pure]
      cases Relocation.parse? rule <;> rfl
    | _ => rfl

theorem faultOf_onlyInOf :
    faultOf (onlyInOf place s) = (Element.onlyIn place (s.get? "onlyIn")).fault? := by
  rw [onlyInOf]
  cases s.get? "onlyIn" with
  | none => rfl
  | some v =>
    rw [Element.fault?, Element.onlyInFault]
    dsimp only
    cases v.items?.bind allTexts? <;> rfl

/-- A type that may be given is one of the known types, unless an unknown one is given. -/
theorem fault_repositoryType {o : Option String} (h : s.HasOptional "repositoryType" o) :
    (Element.repositoryType place (s.get? "repositoryType")).fault? =
      if typeOf s ∈ repositoryTypes then none else some ⟨place, .repositoryType (typeOf s)⟩ := by
  have hdefault : (if (s.get? "path").isSome then "File" else "URL") ∈ repositoryTypes := by
    split <;> decide
  rcases h with ⟨h | h, -⟩ | ⟨type, h, -⟩
  · rw [typeOf, h, if_pos hdefault]
    rfl
  · rw [typeOf, h, if_pos hdefault]
    rfl
  · have h : s.get? "repositoryType" = some (.text type) := h
    rw [typeOf, h]
    rfl

/-- The type is read first, and then it decides between the path and the repository. -/
theorem faultOf_originOf :
    faultOf (originOf place s) = firstFault
      [.repositoryType place (s.get? "repositoryType"),
        .origin place (typeOf s) (s.get? "path") (s.get? "repository")] := by
  have hgiven := s.faultOf_optionalText place "repositoryType"
  rw [originOf, firstFault_cons, firstFault_singleton]
  cases hread : s.optionalText place "repositoryType" with
  | error f =>
    rw [hread] at hgiven
    have hfault : (Element.repositoryType place (s.get? "repositoryType")).fault? = some f := by
      cases hfound : s.get? "repositoryType" with
      | none =>
        rw [hfound] at hgiven
        cases hgiven
      | some v =>
        rw [hfound] at hgiven
        cases v with
        | text _ | null => cases hgiven
        | _ => exact hgiven.symm
    rw [hfault]
    rfl
  | ok given =>
    have ho := Section.optionalText_eq_ok_iff.1 hread
    rw [fault_repositoryType ho, ← typeOf_eq ho]
    change faultOf (if _ then _ else _) = _
    generalize given.getD _ = type
    by_cases hmem : type ∈ repositoryTypes
    · rw [if_neg (not_not_intro hmem), if_pos hmem, Option.none_or, Element.fault?]
      by_cases hfile : type = "File"
      · rw [if_pos hfile, if_pos hfile, ← s.faultOf_text place "path"]
        split
        · rfl
        · exact faultOf_bind_pure _ _
      · rw [if_neg hfile, if_neg hfile, ← s.faultOf_text place "repository"]
        split
        · rfl
        · exact faultOf_bind_pure _ _
    · rw [if_pos hmem, if_neg hmem]
      rfl

theorem faultOf_ofValue (index : Nat) (v : Value) :
    faultOf (ofValue index v) = firstFault (elements index v) := by
  refine faultOf_bind_cons (Section.faultOf_ofValue _ v) fun s hs => ?_
  obtain rfl := Section.ofValue_eq_ok_iff.1 hs
  refine faultOf_bind_cons (Section.faultOf_text s _ "artifact") fun artifact _ =>
    faultOf_bind_cons (Section.faultOf_text s _ "type") fun declaration _ =>
      faultOf_bind_cons faultOf_relocationOf fun relocation _ =>
        faultOf_bind_cons faultOf_onlyInOf fun onlyIn _ => ?_
  exact (faultOf_bind_pure _ _).trans faultOf_originOf

theorem faultOf_ofValues (index : Nat) (vs : List Value) :
    faultOf (ofValues index vs) = firstFault (elementsFrom index vs) := by
  induction vs generalizing index with
  | nil => rfl
  | cons v vs ih =>
    refine faultOf_bind (faultOf_ofValue index v) fun l _ => ?_
    exact (faultOf_bind_pure _ _).trans (ih (index + 1))

theorem faultOf_allOf (s : Section) : faultOf (allOf s) = firstFault (allElements s) := by
  rw [allOf, allElements]
  cases s.get? "libraries" with
  | none => rfl
  | some v =>
    cases v with
    | list vs => exact faultOf_ofValues 0 vs
    | _ => rfl

end Library

/-! ## The document -/

theorem Dependency.faultOf_ofEntry (e : Key × Value) :
    faultOf (ofEntry e) = (Element.dependency e.1 e.2).fault? := by
  obtain ⟨key, value⟩ := e
  cases key with
  | text id =>
    cases value with
    | map s => exact (faultOf_bind_pure _ _).trans (Section.faultOf_text s _ _)
    | _ => rfl
  | _ => rfl

theorem Dependency.faultOf_ofEntries (es : Section) :
    faultOf (ofEntries es) = firstFault (es.map fun e => .dependency e.1 e.2) := by
  induction es with
  | nil => rfl
  | cons e es ih =>
    exact faultOf_bind_cons (faultOf_ofEntry e) fun d _ => (faultOf_bind_pure _ _).trans ih

theorem Mod.faultOf_ofSection (s : Section) :
    faultOf (ofSection s) = firstFault
      (Dependency.elements s ++ (Library.allElements s ++
        Section.textElements s .mod ["pkg", "cls", "name", "id", "version"])) := by
  refine Section.faultOf_part fun es _ => ?_
  refine faultOf_bind (Dependency.faultOf_ofEntries es) fun dependencies _ => ?_
  refine faultOf_bind (Library.faultOf_allOf s) fun libraries _ => ?_
  exact Section.faultOf_text_bind fun pkg => Section.faultOf_text_bind fun className =>
    Section.faultOf_text_bind fun name => Section.faultOf_text_bind fun id =>
      Section.faultOf_text_bind fun version => rfl

theorem Core.faultOf_ofSection (s : Section) :
    faultOf (ofSection s) = firstFault
      [.text .core "version" (s.get? "version"), .optionalText .core "path" (s.get? "path")] := by
  refine faultOf_bind_cons (s.faultOf_text _ "version") fun version _ =>
    (faultOf_bind_pure _ _).trans ?_
  rw [Section.faultOf_optionalText, firstFault_singleton]
  rfl

theorem Integration.faultOf_of? (s : Section) :
    faultOf (of? s) = firstFault (Integration.elements s) := by
  rw [of?, Integration.elements]
  cases s.get? "integration" with
  | none => rfl
  | some v =>
    cases v with
    | map i =>
      exact (faultOf_bind_pure _ _).trans (Section.faultOf_text_bind fun repository =>
        Section.faultOf_text_bind fun branch => Section.faultOf_text_bind fun path => rfl)
    | _ => rfl

theorem Descriptor.faultOf_ofValue (v : Value) :
    faultOf (ofValue v) = firstFault (elements v) := by
  refine faultOf_bind_cons (Section.faultOf_ofValue _ v) fun s hs => ?_
  obtain rfl := Section.ofValue_eq_ok_iff.1 hs
  refine Section.faultOf_part fun m _ => ?_
  refine faultOf_bind (Mod.faultOf_ofSection m) fun mod _ => ?_
  refine Section.faultOf_part fun c _ => ?_
  refine faultOf_bind (Core.faultOf_ofSection c) fun core _ => ?_
  exact (faultOf_bind_pure _ _).trans (Integration.faultOf_of? s)

end ModBuild
