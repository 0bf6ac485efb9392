import Mathlib.Data.List.Perm.Basic
import Mathlib.Logic.Relation
import ModBuild.Proofs.Descriptor.Reading

/-!
# Documents that are read alike

A document can be edited without a reader of descriptors taking notice (`Edit`).  The entries of
a mapping may change their order, but for the dependencies of the mod, and entries may come in
whose keys no rule knows at their *position* (`Position`).  A field that a rule looks at then
holds what it held, or that with an edit in it (`Edit.get?`), and the reader makes no difference
between the two.  So documents that are joined by edits have the same outcome, be it a descriptor
or a fault (`Descriptor.ofValue_edited`).

The order of the dependencies is the only one that a descriptor keeps.
-/

namespace ModBuild

open Document

/-! ## Edits -/

/-- Where a value stands in a document. -/
inductive Position where
  | document
  | mod
  /-- The dependencies of the mod. -/
  | dependencies
  | dependency
  /-- The libraries of the mod. -/
  | libraries
  | library
  | core
  | integration
  /-- Anywhere else.  No rule looks at a part of what stands there. -/
  | inner
deriving DecidableEq, Repr

namespace Position

/-- The fields that rules know at a position, if others may stand beside them. -/
def fields? : Position → Option (List String)
  | document => some ["mod", "umc", "integration"]
  | mod => some ["dependencies", "libraries", "pkg", "cls", "name", "id", "version"]
  | dependency => some ["versions"]
  | library =>
    some ["artifact", "type", "relocate", "onlyIn", "repositoryType", "path", "repository"]
  | core => some ["version", "path"]
  | integration => some ["repo", "branch", "path"]
  | dependencies | libraries | inner => none

/-- No rule knows a key at a position. -/
def Ignores (p : Position) (key : Key) : Prop :=
  ∃ fields, p.fields? = some fields ∧ ∀ f ∈ fields, key ≠ .text f

/-- The position of the value of a field. -/
def below : Position → Key → Position
  | document, key =>
    if key = .text "mod" then mod
    else if key = .text "umc" then core
    else if key = .text "integration" then integration
    else inner
  | mod, key =>
    if key = .text "dependencies" then dependencies
    else if key = .text "libraries" then libraries
    else inner
  | dependencies, _ => dependency
  | _, _ => inner

/-- The position of the items of a list. -/
def item : Position → Position
  | libraries => library
  | _ => inner

theorem not_ignores {p : Position} {fields : List String} {f : String}
    (hp : p.fields? = some fields) (hf : f ∈ fields) : ¬ p.Ignores (.text f) := by
  rintro ⟨fields', hp', hne⟩
  cases hp.symm.trans hp'
  exact hne f hf rfl

end Position

/-- An edit of the value at a position. -/
inductive Edit : Position → Value → Value → Prop
  /-- A mapping gets another order, unless it is the one with the dependencies. -/
  | reorder {p : Position} {es es' : Section} (unordered : p ≠ .dependencies)
      (nodup : (es.map (·.1)).Nodup) (perm : es.Perm es') : Edit p (.map es) (.map es')
  /-- An entry comes in with a key that no rule knows. -/
  | add {p : Position} (before behind : Section) {key : Key} (value : Value)
      (ignored : p.Ignores key) :
      Edit p (.map (before ++ behind)) (.map (before ++ (key, value) :: behind))
  /-- The value of an entry is edited. -/
  | entry {p : Position} (before behind : Section) {key : Key} {v v' : Value} :
      Edit (p.below key) v v' →
      Edit p (.map (before ++ (key, v) :: behind)) (.map (before ++ (key, v') :: behind))
  /-- An item of a list is edited. -/
  | item {p : Position} (before behind : List Value) {v v' : Value} :
      Edit p.item v v' → Edit p (.list (before ++ v :: behind)) (.list (before ++ v' :: behind))

/-- Documents that are joined by edits, in either direction. -/
def Edited (v v' : Value) : Prop :=
  Relation.EqvGen (Edit .document) v v'

/-- What is found in a field, and what is found there after an edit somewhere.  Only in a mapping
or a list there is something to edit. -/
inductive Kept (p : Position) : Option Value → Option Value → Prop
  | same (found : Option Value) : Kept p found found
  | map {s s' : Section} : Edit p (.map s) (.map s') → Kept p (some (.map s)) (some (.map s'))
  | list {vs vs' : List Value} : Edit p (.list vs) (.list vs') →
      Kept p (some (.list vs)) (some (.list vs'))

/-! ## Fields after an edit -/

namespace Document.Entries

variable {κ α : Type} [DecidableEq κ]

theorem get?_append (key : κ) (es es' : List (κ × α)) :
    get? key (es ++ es') = (get? key es).or (get? key es') := by
  induction es with
  | nil => rfl
  | cons e es ih =>
    rw [List.cons_append, get?, get?]
    split
    · rfl
    · exact ih

theorem get?_cons_of_ne {key key' : κ} (h : key' ≠ key) (value : α) (es : List (κ × α)) :
    get? key ((key', value) :: es) = get? key es :=
  if_neg h

/-- What a key holds does not depend on the order of the entries. -/
theorem get?_perm {es es' : List (κ × α)} (hn : (es.map (·.1)).Nodup) (h : es.Perm es') (key : κ) :
    get? key es = get? key es' := by
  have hn' : (es'.map (·.1)).Nodup := (h.map _).nodup_iff.1 hn
  refine Option.ext fun value => ⟨fun hv => ?_, fun hv => ?_⟩
  · exact get?_of_mem hn' (h.mem_iff.1 (mem_of_get? hv))
  · exact get?_of_mem hn (h.mem_iff.2 (mem_of_get? hv))

end Document.Entries

namespace Edit

variable {p : Position}

/-- An edit leaves a mapping a mapping and a list a list. -/
theorem kept {v v' : Value} (h : Edit p v v') : Kept p (some v) (some v') := by
  cases h with
  | reorder unordered nodup perm => exact .map (.reorder unordered nodup perm)
  | add before behind value ignored => exact .map (.add before behind value ignored)
  | entry before behind edit => exact .map (.entry before behind edit)
  | item before behind edit => exact .list (.item before behind edit)

theorem text?_eq_none {v v' : Value} (h : Edit p v v') : v.text? = none ∧ v'.text? = none := by
  cases h with
  | reorder | add | entry | item => exact ⟨rfl, rfl⟩

/-- A field that a rule knows holds what it held, or that with an edit in it. -/
theorem get? {s s' : Section} (h : Edit p (.map s) (.map s')) {f : String}
    (hf : ¬ p.Ignores (.text f)) : Kept (p.below (.text f)) (s.get? f) (s'.get? f) := by
  cases h with
  | reorder _ nodup perm =>
    have hget : s.get? f = s'.get? f := Entries.get?_perm nodup perm (.text f)
    exact hget ▸ .same _
  | @add _ before behind key value ignored =>
    have hne : key ≠ .text f := fun he => hf (he ▸ ignored)
    simp only [Section.get?, Entries.get?_append, Entries.get?_cons_of_ne hne]
    exact .same _
  | @entry _ before behind key v v' edit =>
    simp only [Section.get?, Entries.get?_append, Entries.get?]
    -- The first entry with the field counts, which may stand in front of the edited one.
    cases Entries.get? (.text f) before with
    | some found => exact .same _
    | none =>
      split
      · next he => exact he ▸ edit.kept
      · exact .same _

end Edit

/-- A list that holds something else than texts is no list of texts. -/
theorem allTexts?_eq_none {before behind : List Value} {v : Value} (hv : v.text? = none) :
    allTexts? (before ++ v :: behind) = none := by
  refine Option.eq_none_iff_forall_not_mem.2 fun names hnames => ?_
  have hmem : v ∈ names.map .text := by
    rw [← allTexts?_eq_some_iff.1 hnames]
    exact List.mem_append_right before List.mem_cons_self
  obtain ⟨name, -, rfl⟩ := List.mem_map.1 hmem
  cases hv

namespace Kept

variable {p : Position} {o o' : Option Value} {s s' : Section} {place : Place} {field : String}

theorem isSome_eq (h : Kept p o o') : o.isSome = o'.isSome := by
  cases h with
  | same | map | list => rfl

/-- The fields of a mapping that is kept are kept. -/
theorem get? (h : Kept p (some (.map s)) (some (.map s'))) {fields : List String} (f : String)
    (hp : p.fields? = some fields) (hf : f ∈ fields) :
    Kept (p.below (.text f)) (s.get? f) (s'.get? f) := by
  cases h with
  | same => exact .same _
  | map edit => exact edit.get? (Position.not_ignores hp hf)

/-! ## Readers of fields -/

theorem text (h : Kept p (s.get? field) (s'.get? field)) :
    s.text place field = s'.text place field := by
  rw [Section.text, Section.text, Section.require, Section.require]
  generalize s.get? field = found, s'.get? field = found' at h
  cases h with
  | same | map | list => rfl

theorem optionalText (h : Kept p (s.get? field) (s'.get? field)) :
    s.optionalText place field = s'.optionalText place field := by
  rw [Section.optionalText, Section.optionalText, h.text]
  generalize s.get? field = found, s'.get? field = found' at h
  cases h with
  | same | map | list => rfl

theorem relocationOf (h : Kept p (s.get? "relocate") (s'.get? "relocate")) :
    Library.relocationOf place s = Library.relocationOf place s' := by
  rw [Library.relocationOf, Library.relocationOf, h.optionalText]

theorem onlyInOf (h : Kept p (s.get? "onlyIn") (s'.get? "onlyIn")) :
    Library.onlyInOf place s = Library.onlyInOf place s' := by
  rw [Library.onlyInOf, Library.onlyInOf]
  generalize s.get? "onlyIn" = found, s'.get? "onlyIn" = found' at h
  cases h with
  | same | map => rfl
  | list edit =>
    cases edit with
    | item before behind edit =>
      have hnone := edit.text?_eq_none
      simp only [Value.items?, Option.bind_some, allTexts?_eq_none hnone.1,
        allTexts?_eq_none hnone.2]

theorem originOf (htype : Kept p (s.get? "repositoryType") (s'.get? "repositoryType"))
    (hpath : Kept p (s.get? "path") (s'.get? "path"))
    (hrepository : Kept p (s.get? "repository") (s'.get? "repository")) :
    Library.originOf place s = Library.originOf place s' := by
  simp only [Library.originOf, htype.optionalText, hpath.isSome_eq, hpath.text,
    hrepository.isSome_eq, hrepository.text]

end Kept

/-! ## Readers of parts -/

section Parts

variable {s s' : Section}

/-- A part is looked up and read as a mapping before the rest is read. -/
theorem Kept.part {α : Type} {p : Position} {k k' : Section → Except Fault α}
    {above place : Place} {field : String} (h : Kept p (s.get? field) (s'.get? field))
    (hk : ∀ t t' : Section, Kept p (some (.map t)) (some (.map t')) → k t = k' t') :
    (do k (← Section.ofValue place (← s.require above field))) =
      (do k' (← Section.ofValue place (← s'.require above field))) := by
  rw [Section.require, Section.require]
  generalize s.get? field = found, s'.get? field = found' at h
  cases h with
  | same =>
    cases found with
    | none => rfl
    | some v =>
      cases v with
      | map t => exact hk t t (.same _)
      | _ => rfl
  | map edit => exact hk _ _ (.map edit)
  | list => rfl

theorem Kept.ofLibrary {index : Nat} {v v' : Value} (h : Kept .library (some v) (some v')) :
    Library.ofValue index v = Library.ofValue index v' := by
  cases h with
  | same | list => rfl
  | @map s s' edit =>
    have hkept : ∀ f ∈ ["artifact", "type", "relocate", "onlyIn", "repositoryType", "path",
        "repository"], Kept .inner (s.get? f) (s'.get? f) := fun f hf =>
      Kept.get? (.map edit) f rfl hf
    simp only [List.forall_mem_cons] at hkept
    obtain ⟨hartifact, htype, hrelocate, honlyIn, hrepositoryType, hpath, hrepository, -⟩ := hkept
    simp only [Library.ofValue, Section.ofValue, Value.entries?, bind, Except.bind, hartifact.text,
      htype.text, hrelocate.relocationOf, honlyIn.onlyInOf,
      Kept.originOf hrepositoryType hpath hrepository]

theorem Kept.ofLibraries {index : Nat} {v v' : Value} (h : Kept .library (some v) (some v'))
    (before behind : List Value) :
    Library.ofValues index (before ++ v :: behind) =
      Library.ofValues index (before ++ v' :: behind) := by
  induction before generalizing index with
  | nil =>
    rw [List.nil_append, List.nil_append, Library.ofValues, Library.ofValues, h.ofLibrary]
  | cons u before ih =>
    rw [List.cons_append, List.cons_append, Library.ofValues, Library.ofValues, ih]

theorem Kept.allOf (h : Kept .libraries (s.get? "libraries") (s'.get? "libraries")) :
    Library.allOf s = Library.allOf s' := by
  rw [Library.allOf, Library.allOf]
  generalize s.get? "libraries" = found, s'.get? "libraries" = found' at h
  cases h with
  | same | map => rfl
  | list edit =>
    cases edit with
    | item before behind edit => exact edit.kept.ofLibraries before behind

theorem Kept.ofEntry {key : Key} {v v' : Value} (h : Kept .dependency (some v) (some v')) :
    Dependency.ofEntry (key, v) = Dependency.ofEntry (key, v') := by
  cases key with
  | text id =>
    cases h with
    | same | list => rfl
    | map edit =>
      have hversions := Kept.get? (.map edit) "versions" rfl (by simp)
      simp only [Dependency.ofEntry, Section.ofValue, Value.entries?, bind, Except.bind,
        hversions.text]
  | _ => rfl

/-- The dependencies keep their order, and no entry comes in. -/
theorem Kept.ofEntries (h : Kept .dependencies (some (.map s)) (some (.map s'))) :
    Dependency.ofEntries s = Dependency.ofEntries s' := by
  cases h with
  | same => rfl
  | map edit =>
    cases edit with
    | reorder unordered => exact absurd rfl unordered
    | add before behind value ignored =>
      -- Every key is the id of a dependency, so there is none to ignore.
      obtain ⟨fields, hfields, -⟩ := ignored
      cases hfields
    | @entry _ before behind key v v' edit =>
      induction before with
      | nil =>
        rw [List.nil_append, List.nil_append, Dependency.ofEntries, Dependency.ofEntries,
          edit.kept.ofEntry]
      | cons e before ih =>
        rw [List.cons_append, List.cons_append, Dependency.ofEntries, Dependency.ofEntries, ih]

theorem Kept.ofModSection (h : Kept .mod (some (.map s)) (some (.map s'))) :
    Mod.ofSection s = Mod.ofSection s' := by
  have hdependencies : Kept .dependencies (s.get? "dependencies") (s'.get? "dependencies") :=
    h.get? "dependencies" rfl (by simp)
  have hlibraries : Kept .libraries (s.get? "libraries") (s'.get? "libraries") :=
    h.get? "libraries" rfl (by simp)
  have hpkg := h.get? "pkg" rfl (by simp)
  have hclassName := h.get? "cls" rfl (by simp)
  have hname := h.get? "name" rfl (by simp)
  have hid := h.get? "id" rfl (by simp)
  have hversion := h.get? "version" rfl (by simp)
  refine hdependencies.part fun t t' ht => ?_
  simp only [ht.ofEntries, hlibraries.allOf, hpkg.text, hclassName.text, hname.text, hid.text,
    hversion.text]

theorem Kept.ofCoreSection (h : Kept .core (some (.map s)) (some (.map s'))) :
    Core.ofSection s = Core.ofSection s' := by
  have hversion := h.get? "version" rfl (by simp)
  have hpath := h.get? "path" rfl (by simp)
  simp only [Core.ofSection, hversion.text, hpath.optionalText]

theorem Kept.ofIntegrationSection (h : Kept .integration (some (.map s)) (some (.map s'))) :
    Integration.ofSection s = Integration.ofSection s' := by
  have hrepository := h.get? "repo" rfl (by simp)
  have hbranch := h.get? "branch" rfl (by simp)
  have hpath := h.get? "path" rfl (by simp)
  simp only [Integration.ofSection, hrepository.text, hbranch.text, hpath.text]

theorem Kept.integrationOf?
    (h : Kept .integration (s.get? "integration") (s'.get? "integration")) :
    Integration.of? s = Integration.of? s' := by
  rw [Integration.of?, Integration.of?]
  generalize s.get? "integration" = found, s'.get? "integration" = found' at h
  cases h with
  | same | list => rfl
  | map edit =>
    simp only [Section.ofValue, Value.entries?, bind, Except.bind,
      Kept.ofIntegrationSection (.map edit)]

end Parts

theorem Kept.ofDocument {v v' : Value} (h : Kept .document (some v) (some v')) :
    Descriptor.ofValue v = Descriptor.ofValue v' := by
  cases h with
  | same | list => rfl
  | @map s s' edit =>
    have hfields : Kept .document (some (.map s)) (some (.map s')) := .map edit
    have hmod : Kept .mod (s.get? "mod") (s'.get? "mod") := hfields.get? "mod" rfl (by simp)
    have hcore : Kept .core (s.get? "umc") (s'.get? "umc") := hfields.get? "umc" rfl (by simp)
    have hintegration : Kept .integration (s.get? "integration") (s'.get? "integration") :=
      hfields.get? "integration" rfl (by simp)
    refine hmod.part fun m m' hm => ?_
    rw [hm.ofModSection]
    refine congrArg _ (funext fun mod => hcore.part fun c c' hc => ?_)
    rw [hc.ofCoreSection, hintegration.integrationOf?]

/-- Edits of a document do not change what it is read as. -/
theorem Descriptor.ofValue_edited {v v' : Value} (h : Edited v v') :
    Descriptor.ofValue v = Descriptor.ofValue v' := by
  induction h with
  | rel _ _ edit => exact edit.kept.ofDocument
  | refl => rfl
  | symm _ _ _ ih => exact ih.symm
  | trans _ _ _ _ _ ih ih' => exact ih.trans ih'

/-! ## Other orders of the dependencies -/

/-- A document whose mod has some entries for its dependencies. -/
def Descriptor.withDependencies (s m es : Section) : Value :=
  .map (Entries.set (.text "mod") (.map (Entries.set (.text "dependencies") (.map es) m)) s)

theorem Section.get?_set (s : Section) (field f : String) (v : Value) :
    Section.get? (Entries.set (.text field) v s) f = if f = field then some v else s.get? f := by
  rw [Section.get?, Entries.get?_set]
  simp only [Key.text.injEq]
  rfl

theorem Dependency.ids_of_describes {es : Section} {ds : List Dependency}
    (h : List.Forall₂ Dependency.Describes es ds) :
    ds.map (fun d => Key.text d.id) = es.map (·.1) := by
  induction h with
  | nil => rfl
  | cons hd _ ih => rw [List.map_cons, List.map_cons, ih, hd.1]

/-- A mod with other dependencies is described with these in their place. -/
theorem Mod.Describes.withDependencies {m es : Section} {mod : Mod} {ds : List Dependency}
    (h : Mod.Describes m mod) (hds : List.Forall₂ Dependency.Describes es ds) :
    Mod.Describes (Entries.set (.text "dependencies") (.map es) m)
      { mod with dependencies := ds } where
  pkg := by simpa [Section.Has, Section.get?_set] using h.pkg
  className := by simpa [Section.Has, Section.get?_set] using h.className
  name := by simpa [Section.Has, Section.get?_set] using h.name
  id := by simpa [Section.Has, Section.get?_set] using h.id
  version := by simpa [Section.Has, Section.get?_set] using h.version
  dependencies := ⟨es, by simp [Section.get?_set], hds⟩
  libraries := by simpa [Section.get?_set] using h.libraries

theorem Descriptor.Describes.withDependencies {s m es : Section} {d : Descriptor}
    {ds : List Dependency} (h : Descriptor.Describes (.map s) d)
    (hm : s.get? "mod" = some (.map m)) (hds : List.Forall₂ Dependency.Describes es ds) :
    Descriptor.Describes (withDependencies s m es) { d with mod.dependencies := ds } := by
  obtain ⟨_, _, core, ⟨⟩, hm', hmod, hc, hcore, hi⟩ := h
  cases hm.symm.trans hm'
  refine ⟨_, _, core, rfl, ?_, hmod.withDependencies hds, ?_, hcore, ?_⟩
  · simp [Section.get?_set]
  · simpa [Section.get?_set] using hc
  · simpa [Section.get?_set] using hi

theorem Descriptor.ofValue_withDependencies {s m es es' : Section} {d : Descriptor}
    (hm : s.get? "mod" = some (.map m)) (hes : m.get? "dependencies" = some (.map es))
    (hperm : es.Perm es') (h : ofValue (.map s) = .ok d) :
    ∃ ds, ofValue (withDependencies s m es') = .ok { d with mod.dependencies := ds } ∧
      ds.Perm d.mod.dependencies ∧ ds.map (fun x => Key.text x.id) = es'.map (·.1) := by
  have hdescribes := ofValue_eq_ok_iff.1 h
  obtain ⟨_, _, -, ⟨⟩, hm', hmod, -⟩ := hdescribes
  cases hm.symm.trans hm'
  obtain ⟨_, hes', hread⟩ := hmod.dependencies
  cases hes.symm.trans hes'
  obtain ⟨ds, hds, hdsPerm⟩ := List.perm_comp_forall₂ hperm.symm hread
  exact ⟨ds, ofValue_eq_ok_iff.2 (Describes.withDependencies (ofValue_eq_ok_iff.1 h) hm hds),
    hdsPerm, Dependency.ids_of_describes hds⟩

/-- Documents that differ only in the order of their mappings and in keys that no rule knows are
read alike: as the same descriptor, or with the same fault, which is told in the same words.  Only
the order of the dependencies is kept.  Another order of them in a document that is read gives the
same descriptor with its dependencies in that order. -/
theorem Descriptor.order_of_entries :
    (∀ v v', Edited v v' → ofValue v = ofValue v') ∧
    ∀ (s m es es' : Section) (d : Descriptor), s.get? "mod" = some (.map m) →
      m.get? "dependencies" = some (.map es) → es.Perm es' → ofValue (.map s) = .ok d →
      ∃ ds, ofValue (withDependencies s m es') = .ok { d with mod.dependencies := ds } ∧
        ds.Perm d.mod.dependencies ∧ ds.map (fun x => Key.text x.id) = es'.map (·.1) :=
  ⟨fun _ _ => ofValue_edited, fun _ _ _ _ _ => ofValue_withDependencies⟩

/-- A mod with some dependencies. -/
def sampleMod (dependencies : Section) : Section :=
  [(.text "dependencies", .map dependencies), (.text "pkg", .text "p"), (.text "cls", .text "C"),
    (.text "name", .text "N"), (.text "id", .text "i"), (.text "version", .text "1")]

/-- Two dependencies, one of them with a note. -/
def notedDependencies (notes : Section) : Section :=
  [(.text "forge", .text "[14,)"), (.text "jei", .map (notes ++ [(.text "versions", .text "[9,)")]))]

/-- A core library of a fixed version. -/
def sampleCore : Key × Value :=
  (.text "umc", .map [(.text "version", .text "2")])

/-- A document with notes in a dependency. -/
def notedDocument (notes : Section) : Section :=
  [(.text "mod", .map (sampleMod (notedDependencies notes))), sampleCore]

/-- A document is read as before with a note in a dependency, another one in front of its mod and
the core library first.  It is also read with its dependencies the other way round. -/
theorem Descriptor.order_of_entries_noted :
    ofValue (.map (notedDocument [])) =
      ofValue (.map (sampleCore :: (.text "note", .list [.null]) ::
        (notedDocument [(.int 7, .text "n")]).take 1)) ∧
    ∃ d ds, ofValue (.map (notedDocument [])) = .ok d ∧
      ofValue (withDependencies (notedDocument []) (sampleMod (notedDependencies []))
        (notedDependencies []).reverse) = .ok { d with mod.dependencies := ds } ∧
      ds.map (fun x => Key.text x.id) = [.text "jei", .text "forge"] := by
  obtain ⟨hedited, hdependencies⟩ := order_of_entries
  constructor
  · let noted := (notedDocument [(.int 7, .text "n")]).take 1
    have hinner : Edit .document (.map (notedDocument [])) (.map (noted ++ [sampleCore])) := by
      refine .entry [] [sampleCore] (.entry [] _ (.entry [_] [] (.add [] _ _ ?_)))
      exact ⟨_, rfl, by decide⟩
    have hswap : Edit .document (.map (noted ++ [sampleCore])) (.map (sampleCore :: noted)) :=
      .reorder (by decide) (by decide) (.swap _ _ _)
    have hfront : Edit .document (.map (sampleCore :: noted))
        (.map (sampleCore :: (.text "note", .list [.null]) :: noted)) :=
      .add [sampleCore] noted _ ⟨_, rfl, by decide⟩
    exact hedited _ _ (.trans _ _ _ (.rel _ _ hinner)
      (.trans _ _ _ (.rel _ _ hswap) (.rel _ _ hfront)))
  · obtain ⟨d, hd⟩ : ∃ d, ofValue (.map (notedDocument [])) = .ok d := ⟨_, rfl⟩
    obtain ⟨ds, hds, -, hids⟩ := hdependencies _ _ _ _ d rfl rfl (List.reverse_perm _).symm hd
    exact ⟨d, ds, hd, hds, hids⟩

end ModBuild
