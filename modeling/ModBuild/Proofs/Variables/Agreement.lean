import ModBuild.Proofs.Variables.Build

/-!
# What a build depends on

A build for a variant looks at the mod of a descriptor, and of its libraries only at those that
are for the variant.  Which other variants such a library is for does not matter.  So what a
build looks at is a descriptor of its own, in which nothing else is left (`Descriptor.seenBy`), and
it gives the same table or the same error (`build_seenBy`).  Two descriptors of which the same is
seen are built alike, however they differ otherwise (`build_agrees`).
-/

namespace ModBuild

/-- A library without a restriction to variants. -/
def Library.everywhere (l : Library) : Library :=
  { l with onlyIn := [] }

/-- What a build for a variant looks at: the mod with the libraries for the variant. -/
def Descriptor.seenBy (v : Variant) (d : Descriptor) : Descriptor where
  mod := { d.mod with libraries := (Variables.librariesFor d.mod v).map Library.everywhere }
  core := ⟨"", none⟩
  integration := none

namespace Variables

variable {v : Variant}

/-! ## Libraries without their restrictions -/

theorem repositories_everywhere (libraries : List Library) :
    repositories (libraries.map Library.everywhere) = repositories libraries := by
  simp only [repositories, List.filterMap_map]
  rfl

theorem declarations_everywhere (libraries : List Library) :
    declarations (libraries.map Library.everywhere) = declarations libraries := by
  simp only [declarations, List.map_map]
  rfl

theorem relocations_everywhere (libraries : List Library) :
    relocations (libraries.map Library.everywhere) = relocations libraries := by
  simp only [relocations, List.filterMap_map]
  rfl

/-- All libraries that are seen are for the variant. -/
theorem librariesFor_seenBy (v : Variant) (d : Descriptor) :
    librariesFor (d.seenBy v).mod v = (librariesFor d.mod v).map Library.everywhere := by
  refine List.filter_eq_self.2 fun l hl => ?_
  obtain ⟨l, -, rfl⟩ := List.mem_map.1 hl
  exact decide_eq_true (.inl rfl)

/-! ## What is seen of a descriptor -/

theorem entriesOf_seenBy (dialect : Dialect) (d : Descriptor) (v : Variant) (version : String)
    (api : ApiVersion) (artifact : Artifact) :
    entriesOf dialect (d.seenBy v).mod v version api artifact =
      entriesOf dialect d.mod v version api artifact := by
  simp only [entriesOf, librariesFor_seenBy, repositories_everywhere, declarations_everywhere,
    relocations_everywhere]
  rfl

/-- A build needs only what it looks at. -/
theorem build_seenBy (dialect : Dialect) (d : Descriptor) (v : Variant) (version : String)
    (artifact : Artifact) :
    build dialect (d.seenBy v) v version artifact = build dialect d v version artifact := by
  simp only [build, entriesOf_seenBy]
  rfl

/-- Two descriptors agree on the texts of their mods, on the dependencies and on the libraries
that are for a variant. -/
structure Agree (v : Variant) (d d' : Descriptor) : Prop where
  pkg : d.mod.pkg = d'.mod.pkg
  className : d.mod.className = d'.mod.className
  name : d.mod.name = d'.mod.name
  id : d.mod.id = d'.mod.id
  version : d.mod.version = d'.mod.version
  dependencies : d.mod.dependencies = d'.mod.dependencies
  libraries : (d.mod.libraries.filter fun l => l.onlyIn = [] ∨ v.key ∈ l.onlyIn) =
    d'.mod.libraries.filter fun l => l.onlyIn = [] ∨ v.key ∈ l.onlyIn

theorem Agree.seenBy_eq {d d' : Descriptor} (h : Agree v d d') : d.seenBy v = d'.seenBy v := by
  have hlibraries : librariesFor d.mod v = librariesFor d'.mod v := h.libraries
  simp only [Descriptor.seenBy, h.pkg, h.className, h.name, h.id, h.version, h.dependencies,
    hlibraries]

/-- The libraries that are for a variant are found again among themselves. -/
theorem agree_filter (m : Mod) (core core' : Core) (integration integration' : Option Integration) :
    Agree v ⟨m, core, integration⟩
      ⟨{ m with libraries := librariesFor m v }, core', integration'⟩ where
  pkg := rfl
  className := rfl
  name := rfl
  id := rfl
  version := rfl
  dependencies := rfl
  libraries := (List.filter_eq_self.2 fun _ hl => (List.mem_filter.1 hl).2).symm

/-- A library for a variant with its restriction taken away, any other as it is. -/
def freed (v : Variant) (l : Library) : Library :=
  if l.AppliesTo v.key then l.everywhere else l

theorem freed_appliesTo_iff (l : Library) :
    (freed v l).AppliesTo v.key ↔ l.AppliesTo v.key := by
  rw [freed]
  split
  · next hl => exact iff_of_true (.inl rfl) hl
  · exact Iff.rfl

theorem everywhere_freed (l : Library) : (freed v l).everywhere = l.everywhere := by
  rw [freed]
  split <;> rfl

theorem librariesFor_freed (m : Mod) :
    librariesFor { m with libraries := m.libraries.map (freed v) } v =
      (librariesFor m v).map (freed v) := by
  simp only [librariesFor, List.filter_map, Function.comp_def, freed_appliesTo_iff]

theorem seenBy_freed (d : Descriptor) :
    Descriptor.seenBy v { d with mod.libraries := d.mod.libraries.map (freed v) } =
      d.seenBy v := by
  simp only [Descriptor.seenBy, librariesFor_freed, List.map_map, Function.comp_def,
    everywhere_freed]

/-- Two descriptors that agree for a variant are built alike: they make the same table, or the
build fails with the same error.  So nothing changes if the libraries for other variants are taken
away and the core library and the integration are replaced, or if the libraries for the variant
are freed of their restrictions. -/
theorem build_agrees (dialect : Dialect) (v : Variant) (version : String) (artifact : Artifact) :
    (∀ d d', Agree v d d' →
      build dialect d v version artifact = build dialect d' v version artifact) ∧
    (∀ m core core' integration integration',
      build dialect ⟨m, core, integration⟩ v version artifact =
        build dialect ⟨{ m with libraries := librariesFor m v }, core', integration'⟩ v version
          artifact) ∧
    ∀ d : Descriptor,
      build dialect { d with mod.libraries := d.mod.libraries.map (freed v) } v version artifact =
        build dialect d v version artifact := by
  have hagree : ∀ d d', Agree v d d' →
      build dialect d v version artifact = build dialect d' v version artifact := by
    intro d d' h
    rw [← build_seenBy, h.seenBy_eq, build_seenBy]
  refine ⟨hagree, fun m core core' integration integration' =>
    hagree _ _ (agree_filter m core core' integration integration'), fun d => ?_⟩
  rw [← build_seenBy, seenBy_freed, build_seenBy]

/-- A library for two loaders, one of which is Forge. -/
def sharedLibrary : Library :=
  ⟨"g:a:1", "shadow", some ⟨"a", "b"⟩, ["1.20-forge", "1.20-fabric"], .maven "https://example.org"⟩

/-- A descriptor with a directory for Fabric in front of the shared library. -/
def withDirectory : Descriptor where
  mod := ⟨"p", "C", "N", "i", "1", [],
    [⟨"g:d:1", "shadow", none, ["1.20-fabric"], .flatDir "libs"⟩, sharedLibrary]⟩
  core := ⟨"latest", some "umc"⟩
  integration := some ⟨"r", "b", "p"⟩

/-- A descriptor with a file for an older version behind the shared library. -/
def withFile : Descriptor where
  mod := ⟨"p", "C", "N", "i", "1", [],
    [sharedLibrary, ⟨"g:f:1", "shadow", none, ["1.12-forge"], .file "f.jar"⟩]⟩
  core := ⟨"2.5", none⟩
  integration := none

theorem build_agrees_otherLoader :
    withDirectory ≠ withFile ∧ ∀ dialect version artifact,
      build dialect withDirectory ⟨"1.20", .forge⟩ version artifact =
        build dialect withFile ⟨"1.20", .forge⟩ version artifact := by
  have hagree : Agree ⟨"1.20", .forge⟩ withDirectory withFile :=
    ⟨rfl, rfl, rfl, rfl, rfl, rfl, by decide +kernel⟩
  refine ⟨by decide +kernel, fun dialect version artifact => ?_⟩
  exact (build_agrees dialect ⟨"1.20", .forge⟩ version artifact).1 _ _ hagree

end Variables

end ModBuild
