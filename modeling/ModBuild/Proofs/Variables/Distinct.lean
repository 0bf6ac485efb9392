import ModBuild.Proofs.Descriptor.Edit
import ModBuild.Proofs.Variables.Dependencies

/-!
# Ids of dependencies

The dependencies of a mod are read off a mapping, so no two of them have one id.  The lists of a
build have the core library behind them, and its id can be a key of the mapping as well.  So all
ids of the lists differ if and only if it is not (`build_ids`).
-/

namespace ModBuild

open Document Text

namespace Variables

variable {dialect : Dialect} {d : Descriptor} {v : Variant} {version : String}
variable {artifact : Artifact} {t : Table}

/-! ## What is listed -/

/-- The two lists of dependencies of a mod.  A brand that reads no TOML has no blocks. -/
structure DependencyLists (brand : Brand) (modId : String) (declared : List Dependency)
    (line blocks : String) : Prop where
  requirements : line = "; ".intercalate (declared.map requirement)
  tomlBlocks : ∀ mandatory, mandatoryLine? brand = some mandatory →
    blocks = "\n\n".intercalate (declared.map (tomlBlock modId mandatory))
  noBlocks : mandatoryLine? brand = none → blocks = ""

namespace DependencyLists

variable {brand : Brand} {modId line blocks mandatory : String} {declared : List Dependency}

/-- The ids in the line are those of the dependencies, whatever is in the ranges but
delimiters. -/
theorem read_line (h : DependencyLists brand modId declared line blocks) (hne : declared ≠ [])
    (hreadable : ∀ dep ∈ declared, Readable dep) :
    (pieces "; " line).map (fun part => (readRequirement? part).map Dependency.id) =
      declared.map fun dep => some dep.id := by
  have hread := congrArg (List.map (Option.map (·.id)))
    (readRequirement?_requirements hreadable hne)
  rw [List.map_map, List.map_map] at hread
  rw [h.requirements]
  exact hread

/-- The ids in the blocks are those of the dependencies as well. -/
theorem read_blocks (h : DependencyLists brand modId declared line blocks) (hne : declared ≠ [])
    (hmod : Undelimited modId) (hreadable : ∀ dep ∈ declared, Readable dep)
    (hmandatory : mandatoryLine? brand = some mandatory) :
    (pieces "\n\n" blocks).map (fun block => (readBlock? block).map (·.2.id)) =
      declared.map fun dep => some dep.id := by
  have hread := congrArg (List.map (Option.map (·.2.id)))
    (readBlock?_tomlBlocks hmod hreadable hne hmandatory)
  rw [List.map_map, List.map_map] at hread
  rw [h.tomlBlocks mandatory hmandatory]
  exact hread

end DependencyLists

/-- A table that was built lists the dependencies of the mod and the core library. -/
theorem lists_of_build (h : build dialect d v version artifact = .ok t) :
    ∃ api line blocks,
      t.get? "FORGE_STRING_DEPENDENCIES" = some line ∧
      t.get? "FORGE_TOML_DEPENDENCIES" = some blocks ∧
      DependencyLists v.brand d.mod.id (allDependencies d.mod api) line blocks := by
  obtain ⟨api, -, hvalue⟩ := get?_of_build h
  refine ⟨api, requirements (allDependencies d.mod api),
    (tomlBlocks? v.brand d.mod.id (allDependencies d.mod api)).getD "",
    hvalue (by simp [entriesOf]), hvalue (by simp [entriesOf]), rfl, ?_, ?_⟩
  · intro mandatory hmandatory
    rw [tomlBlocks?, hmandatory]
    rfl
  · intro hnone
    rw [tomlBlocks?, hnone]
    rfl

/-! ## How often an id is listed -/

section Ids

variable {es : Section} {ds : List Dependency}

/-- The ids of dependencies are the keys of the mapping that they are read off. -/
theorem texts_of_ids (h : List.Forall₂ Dependency.Describes es ds) :
    (ds.map Dependency.id).map Key.text = es.map (·.1) := by
  rw [List.map_map]
  exact Dependency.ids_of_describes h

theorem nodup_ids (h : List.Forall₂ Dependency.Describes es ds) (hkeys : (es.map (·.1)).Nodup) :
    (ds.map Dependency.id).Nodup := by
  rw [← texts_of_ids h] at hkeys
  exact hkeys.of_map _

theorem mem_ids_iff (h : List.Forall₂ Dependency.Describes es ds) {id : String} :
    id ∈ ds.map Dependency.id ↔ Key.text id ∈ es.map (·.1) := by
  rw [← texts_of_ids h]
  exact (List.mem_map_of_injective fun _ _ => Key.text.inj).symm

end Ids

/-- Every key of the mapping of dependencies is the id of one entry in both lists of a build, and
one more entry has the id of the core library.  So the ids of the entries differ if and only if
this id is no key of the mapping.  Without delimiters in them, they are the ids that are read in
the lists. -/
theorem build_ids {s m es : Section} (hmod : s.get? "mod" = some (.map m))
    (hdependencies : m.get? "dependencies" = some (.map es)) (hkeys : (es.map (·.1)).Nodup)
    (hdocument : Descriptor.ofValue (.map s) = .ok d)
    (hbuild : build dialect d v version artifact = .ok t) :
    ∃ declared line blocks,
      t.get? "FORGE_STRING_DEPENDENCIES" = some line ∧
      t.get? "FORGE_TOML_DEPENDENCIES" = some blocks ∧
      DependencyLists v.brand d.mod.id declared line blocks ∧
      (∀ id, (declared.map Dependency.id).count id =
        (if Key.text id ∈ es.map (·.1) then 1 else 0) + if id = "universalmodcore" then 1 else 0) ∧
      ((declared.map Dependency.id).Nodup ↔ Key.text "universalmodcore" ∉ es.map (·.1)) ∧
      ((∀ dep ∈ d.mod.dependencies, Readable dep) →
        (pieces "; " line).map (fun part => (readRequirement? part).map Dependency.id) =
            declared.map (fun dep => some dep.id) ∧
          (Undelimited d.mod.id → v.brand = .forge ∨ v.brand = .neoforge →
            (pieces "\n\n" blocks).map (fun block => (readBlock? block).map (·.2.id)) =
              declared.map fun dep => some dep.id)) := by
  obtain ⟨api, line, blocks, hline, hblocks, hlists⟩ := lists_of_build hbuild
  obtain ⟨_, _, _, ⟨⟩, hmod', hdescribes, -⟩ := Descriptor.ofValue_eq_ok_iff.1 hdocument
  cases hmod.symm.trans hmod'
  obtain ⟨_, hdependencies', hread⟩ := hdescribes.dependencies
  cases hdependencies.symm.trans hdependencies'
  have hids : (allDependencies d.mod api).map Dependency.id =
      d.mod.dependencies.map Dependency.id ++ [coreId] := by
    rw [allDependencies, List.map_append]
    rfl
  have hne : allDependencies d.mod api ≠ [] := by simp [allDependencies]
  refine ⟨allDependencies d.mod api, line, blocks, hline, hblocks, hlists, fun id => ?_, ?_,
    fun hdeclared => ?_⟩
  · rw [hids, List.count_append, (nodup_ids hread hkeys).count, List.count_singleton]
    simp only [mem_ids_iff hread, beq_iff_eq, eq_comm (a := coreId)]
    rfl
  · rw [hids, ← List.concat_eq_append, List.nodup_concat, ← mem_ids_iff hread]
    exact and_iff_left (nodup_ids hread hkeys)
  · have hreadable := readable_of_mem_allDependencies hdeclared api
    refine ⟨hlists.read_line hne hreadable, fun hmodId hbrand => ?_⟩
    obtain ⟨mandatory, hmandatory⟩ : ∃ mandatory, mandatoryLine? v.brand = some mandatory := by
      rcases hbrand with hbrand | hbrand <;> exact ⟨_, congrArg mandatoryLine? hbrand⟩
    exact hlists.read_blocks hne hmodId hreadable hmandatory

/-- A document whose mod has some dependencies. -/
def dependentDocument (dependencies : Section) : Section :=
  [(.text "mod", .map (sampleMod dependencies)), sampleCore]

/-- The descriptor that such a document is. -/
def dependentDescriptor (dependencies : List Dependency) : Descriptor where
  mod := {
    pkg := "p", className := "C", name := "N", id := "i", version := "1"
    dependencies, libraries := [] }
  core := ⟨"2", none⟩
  integration := none

/-- The build of such a descriptor. -/
def dependentBuild (dependencies : List Dependency) : Except BuildError Table :=
  build .shadow (dependentDescriptor dependencies) ⟨"1.20", .forge⟩ "2.5"
    (.file ⟨.slash, ["u.jar"]⟩)

theorem build_ids_apart :
    ∃ t line blocks, ∃ declared : List Dependency,
      dependentBuild [⟨"forge", "[14,)"⟩, ⟨"jei", "[9,)"⟩] = .ok t ∧
      t.get? "FORGE_STRING_DEPENDENCIES" = some line ∧
      DependencyLists .forge "i" declared line blocks ∧
      (declared.map Dependency.id).Nodup ∧ (declared.map Dependency.id).count "jei" = 1 := by
  have hdocument : Descriptor.ofValue (.map (dependentDocument
      [(.text "forge", .text "[14,)"), (.text "jei", .text "[9,)")])) =
      .ok (dependentDescriptor [⟨"forge", "[14,)"⟩, ⟨"jei", "[9,)"⟩]) := rfl
  have hbuilds : (dependentBuild [⟨"forge", "[14,)"⟩, ⟨"jei", "[9,)"⟩]).toOption.isSome = true := by
    decide +kernel
  cases hbuild : dependentBuild [⟨"forge", "[14,)"⟩, ⟨"jei", "[9,)"⟩] with
  | error e =>
    rw [hbuild] at hbuilds
    cases hbuilds
  | ok t =>
    obtain ⟨declared, line, blocks, hline, -, hlists, hcount, hdistinct, -⟩ :=
      build_ids rfl rfl (by decide) hdocument hbuild
    exact ⟨t, line, blocks, declared, rfl, hline, hlists, hdistinct.2 (by decide), hcount "jei"⟩

/-- A document can be read and have an id twice in its lists. -/
theorem build_ids_core :
    Descriptor.ofValue (.map (dependentDocument [(.text "universalmodcore", .text "[2.0,)")])) =
        .ok (dependentDescriptor [⟨"universalmodcore", "[2.0,)"⟩]) ∧
      ∃ line, (dependentBuild [⟨"universalmodcore", "[2.0,)"⟩]).toOption.bind
          (·.get? "FORGE_STRING_DEPENDENCIES") = some line ∧
        (pieces "; " line).map (fun part => (readRequirement? part).map Dependency.id) =
          [some "universalmodcore", some "universalmodcore"] := by
  refine ⟨rfl, "required-after:universalmodcore@[2.0,); " ++
    "required-after:universalmodcore@[2.5, 2.6)", ?_, ?_⟩
  · decide +kernel
  · decide +kernel

end Variables

end ModBuild
