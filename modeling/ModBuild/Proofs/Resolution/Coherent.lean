import ModBuild.Proofs.Artifact.Locate
import ModBuild.Proofs.Variables.Build
import ModBuild.Proofs.Version.Found
import ModBuild.Resolution

/-!
# Coherent resolutions

The version, the binary and the table of a resolution are found one after the other, and
each of them is named by the variant and by what was found before.  So the table agrees
with itself and with the run (`Coherent`), whatever the source control does
(`resolution_coherent`).
-/

namespace ModBuild

open ModBuild.Action

/-! ## The variables about the core library -/

namespace Variables

variable {dialect : Dialect} {m : Mod} {v : Variant} {version : String} {api : ApiVersion}

/-- A binary that is a file has no download. -/
theorem get?_of_file {t : Table} {jar : Path}
    (h : t.entries = entriesOf dialect m v version api (.file jar)) :
    t.get? fileKey = some jar.toString ∧ t.get? downloadKey = none := by
  refine ⟨Table.get?_eq_some_iff.2 ?_, Table.get?_eq_none_iff.2 ?_⟩
  · rw [h]
    simp [entriesOf, locationEntry]
  · rw [h, names_entriesOf, downloadKey_mem_schema]
    exact Bool.false_ne_true.symm

/-- A binary that is published has no file. -/
theorem get?_of_published {t : Table} {p : Publication}
    (h : t.entries = entriesOf dialect m v version api (.published p)) :
    t.get? downloadKey = some p.url ∧ t.get? fileKey = none := by
  refine ⟨Table.get?_eq_some_iff.2 ?_, Table.get?_eq_none_iff.2 ?_⟩
  · rw [h]
    simp [entriesOf, locationEntry]
  · rw [h, names_entriesOf, fileKey_mem_schema]
    exact Bool.false_ne_true

theorem requirement_coreDependency (api : ApiVersion) :
    requirement (coreDependency api) =
      "required-after:universalmodcore@[" ++ api.text ++ ", " ++ api.next.text ++ ")" := by
  have hstart : "required-after:universalmodcore@[" =
      "required-after:" ++ "universalmodcore" ++ "@" ++ "[" := rfl
  have hparts (p q r s t u v w : String) :
      p ++ q ++ r ++ (s ++ t ++ u ++ v ++ w) = p ++ q ++ r ++ s ++ t ++ u ++ v ++ w := by
    simp only [String.append_assoc]
  rw [hstart]
  exact hparts "required-after:" coreId "@" "[" _ _ _ _

/-- The last requirement is that of the core library. -/
theorem requirements_allDependencies (m : Mod) (api : ApiVersion) :
    ∃ before, requirements (allDependencies m api) = before ++
      ("required-after:universalmodcore@[" ++ api.text ++ ", " ++ api.next.text ++ ")") := by
  rw [← requirement_coreDependency, requirements, allDependencies, List.map_append,
    List.map_singleton]
  by_cases hnone : m.dependencies.map requirement = []
  · exact ⟨"", by simp [hnone]⟩
  · rw [String.intercalate_append_of_ne_nil hnone (List.cons_ne_nil _ _),
      String.intercalate_singleton]
    exact ⟨_, rfl⟩

end Variables

namespace Resolution

variable {source : SourceControl} {target : Target} {d : Descriptor} {r : Resolution}
variable {w w' : World}

/-! ## The steps of a resolution -/

/-- A resolution has come through all of its steps. -/
theorem ofDescriptor_ok (h : (ofDescriptor source target d).runIn w = (.ok r, w')) :
    r.descriptor = d ∧
      Version.Found source target.settings target.workingDir d.core target.variant.key w
        r.version ∧
      Artifact.Located target.settings target.workingDir d.core target.variant.key r.version w'
        r.artifact ∧
      Variables.build target.dialect d target.variant r.version r.artifact = .ok r.table := by
  rw [ofDescriptor, runIn_bind_ok (runIn_write _ _ _ w)] at h
  obtain ⟨version, v, hversion, h⟩ := of_runIn_bind_ok h
  obtain ⟨artifact, v', hartifact, h⟩ := of_runIn_bind_ok h
  have hfound := (Version.resolve_found hversion).congr (w := w) rfl rfl
  have hlocated := Artifact.locate_located hartifact
  split at h
  · cases h
  · next table htable =>
    obtain ⟨_, v₂, hwrite, h⟩ := of_runIn_bind_ok h
    cases hwrite
    cases h
    exact ⟨rfl, hfound, hlocated.congr rfl rfl, htable⟩

/-! ## Coherence -/

/-- How a table agrees with itself and with the run that it comes from. -/
structure Coherent (source : SourceControl) (target : Target) (w w' : World) (r : Resolution) :
    Prop where
  minecraft : r.table.get? "MINECRAFT" = some target.variant.platform
  loader : r.table.get? "LOADER" = some target.variant.brand.name
  loaderVersion : r.table.get? "LOADER_VERSION" = some target.variant.key
  /-- The key of the variant joins the two. -/
  key : target.variant.key = target.variant.platform ++ "-" ++ target.variant.brand.name
  umcVersion : r.table.get? "UMC_VERSION" = some r.version
  /-- The version is the one that is named, or it was read off a source tree.  If the tree is
  a clone, it is one of the branch with the name of the key. -/
  found : Version.Found source target.settings target.workingDir r.descriptor.core
    target.variant.key w r.version
  notLatest : r.version ≠ "latest"
  /-- The API versions are those of the version, and the last dependency asks for them. -/
  api : ∃ api, ApiVersion.ofVersion? r.version = some api ∧
    r.table.get? "UMC_API" = some api.text ∧ r.table.get? "UMC_API_NEXT" = some api.next.text ∧
    ∃ before, r.table.get? "FORGE_STRING_DEPENDENCIES" = some (before ++
      ("required-after:universalmodcore@[" ++ api.text ++ ", " ++ api.next.text ++ ")"))
  /-- The binary of a local checkout is a file that is there, and its text leads to it. -/
  file : ∀ path, r.descriptor.core.path = some path → path ≠ "" →
    r.table.get? "UMC_DOWNLOAD" = none ∧
    ∃ jar : Path, r.table.get? "UMC_FILE" = some jar.toString ∧
      jar = Version.baseOf target.workingDir w' / .ofString path / .ofString "build/libs" /
        .ofString ("UniversalModCore-" ++ target.variant.key ++ "-" ++ r.version ++ ".jar") ∧
      w'.isFile jar = true ∧
      ((Version.baseOf target.workingDir w').IsNormal → .ofString jar.toString = jar)
  /-- The newest version of a local checkout was read off the tree that has the binary, unless
  the source control has left the working directory. -/
  sameTree : ∀ path, r.descriptor.core.path = some path → path ≠ "" →
    r.descriptor.core.version = "latest" → w'.here = w.here →
    ∃ v, v.files = w.files ∧ v.stage = w.stage ∧
      Version.ReadOff source target.settings
        (Version.baseOf target.workingDir w' / .ofString path) v r.version
  /-- Any other binary is a download from the repository. -/
  download : (r.descriptor.core.path = none ∨ r.descriptor.core.path = some "") →
    r.table.get? "UMC_FILE" = none ∧
    r.table.get? "UMC_DOWNLOAD" =
      some (target.settings.mavenUrl ++ "/cam72cam/universalmodcore/UniversalModCore/" ++
        target.variant.key ++ "-" ++ r.version ++ "/UniversalModCore-" ++ target.variant.key ++
        "-" ++ r.version ++ ".jar")

/-- A resolution that was found is coherent. -/
theorem ofDescriptor_coherent (h : (ofDescriptor source target d).runIn w = (.ok r, w')) :
    r.descriptor = d ∧ Coherent source target w w' r := by
  obtain ⟨rfl, hfound, hlocated, hbuild⟩ := ofDescriptor_ok h
  obtain ⟨api, hapi, hentries⟩ := Variables.entries_of_build hbuild
  have hvalue {name value : String} (hmem : (name, value) ∈ Variables.entriesOf target.dialect
      r.descriptor.mod target.variant r.version api r.artifact) :
      r.table.get? name = some value :=
    Variables.Table.get?_eq_some_iff.2 (hentries ▸ hmem)
  obtain ⟨before, hbefore⟩ := Variables.requirements_allDependencies r.descriptor.mod api
  refine ⟨rfl, {
    minecraft := hvalue (by simp [Variables.entriesOf])
    loader := hvalue (by simp [Variables.entriesOf])
    loaderVersion := hvalue (by simp [Variables.entriesOf])
    key := rfl
    umcVersion := hvalue (by simp [Variables.entriesOf])
    found := hfound
    notLatest := hfound.ne_latest
    api := ⟨api, hapi, hvalue (by simp [Variables.entriesOf]),
      hvalue (by simp [Variables.entriesOf]), before,
      hvalue (by simp [Variables.entriesOf, hbefore])⟩
    file := fun path hpath hne => ?_
    sameTree := fun path hpath hne hnewest hhere => ?_
    download := fun hpath => ?_ }⟩
  · unfold Artifact.Located at hlocated
    rw [Core.checkout?_eq_some hpath hne] at hlocated
    obtain ⟨hjar, hfile⟩ := hlocated
    obtain ⟨hhas, hnone⟩ := Variables.get?_of_file (hjar ▸ hentries)
    exact ⟨hnone, _, hhas, rfl, hfile,
      fun hnormal => (Artifact.isNormal_builtPath hnormal _ _ _).ofString_toString⟩
  · have hbase : Version.baseOf target.workingDir w' = Version.baseOf target.workingDir w := by
      rw [Version.baseOf, Version.baseOf, hhere]
    rw [hbase]
    exact hfound.read_checkout hnewest (Core.checkout?_eq_some hpath hne)
  · unfold Artifact.Located at hlocated
    rw [Core.checkout?_eq_none hpath] at hlocated
    obtain ⟨hhas, hnone⟩ := Variables.get?_of_published (hlocated ▸ hentries)
    exact ⟨hnone, hhas.trans (congrArg some (Artifact.publication_url _ _ _))⟩

/-- A resolution of a document or of a descriptor is coherent, whatever the source control does.
No branch other than the one that is named by the key of the variant is ever cloned: what the
source control would do with another one has no part in the run. -/
theorem resolution_coherent (source : SourceControl) (target : Target) (w w' : World)
    (r : Resolution) :
    (∀ document, (ofDocument source target document).runIn w = (.ok r, w') →
      Descriptor.ofValue document = .ok r.descriptor ∧ Coherent source target w w' r) ∧
    (∀ d, (ofDescriptor source target d).runIn w = (.ok r, w') →
      r.descriptor = d ∧ Coherent source target w w' r) ∧
    ∀ source' : SourceControl,
      (∀ url tree shallow, source'.clone url target.variant.key tree shallow =
        source.clone url target.variant.key tree shallow) →
      source'.revision = source.revision →
      ∀ document, ofDocument source' target document = ofDocument source target document := by
  refine ⟨fun document h => ?_, fun d => ofDescriptor_coherent, fun source' hclone hrevision => ?_⟩
  · rw [ofDocument] at h
    cases hd : Descriptor.ofValue document with
    | error fault =>
      rw [hd] at h
      cases h
    | ok d =>
      rw [hd] at h
      obtain ⟨rfl, hcoherent⟩ := ofDescriptor_coherent h
      exact ⟨rfl, hcoherent⟩
  · intro document
    simp only [ofDocument, ofDescriptor, Version.resolve_congr hclone hrevision]

/-- A world with a checkout that was built. -/
def builtCheckout : World :=
  .offline ⟨[
    (["u"], .directory),
    (["u", "build.gradle"], .file "String umcVersion = \"1.2\"\n".toUTF8.toList),
    (["u", "build"], .directory),
    (["u", "build", "libs"], .directory),
    (["u", "build", "libs", "UniversalModCore-1.12.2-forge-1.2-abc1234.jar"], .file [0x50])]⟩

/-- A document that asks for the newest version of the checkout. -/
def newestDocument : Document.Value :=
  .map [
    (.text "mod", .map [(.text "pkg", .text "p"), (.text "cls", .text "C"),
      (.text "name", .text "N"), (.text "id", .text "i"), (.text "version", .text "1"),
      (.text "dependencies", .map [])]),
    (.text "umc", .map [(.text "version", .text "latest"), (.text "path", .text "u")])]

/-- What the document is resolved for. -/
def newestTarget : Target :=
  ⟨⟨"1.12.2", .forge⟩, .shadow, {}, none⟩

theorem resolution_coherent_newest :
    ∃ r w', (ofDocument (.scripted {}) newestTarget newestDocument).runIn builtCheckout =
        (.ok r, w') ∧
      r.table.get? "UMC_VERSION" = some "1.2-abc1234" ∧
      r.table.get? "UMC_FILE" =
        some "/u/build/libs/UniversalModCore-1.12.2-forge-1.2-abc1234.jar" ∧
      w'.isFile ⟨.slash, ["u", "build", "libs",
        "UniversalModCore-1.12.2-forge-1.2-abc1234.jar"]⟩ = true ∧
      r.table.get? "UMC_DOWNLOAD" = none := by
  have hgives : (ofDocument (.scripted {}) newestTarget newestDocument).gives builtCheckout
      (fun r w' => r.version == "1.2-abc1234" && r.descriptor.core == ⟨"latest", some "u"⟩ &&
        w'.here == []) = true := by
    decide +kernel
  obtain ⟨r, w', hrun, hcheck⟩ := gives_iff.1 hgives
  simp only [Bool.and_eq_true, beq_iff_eq] at hcheck
  obtain ⟨⟨hversion, hcore⟩, hhere⟩ := hcheck
  have hpath : r.descriptor.core.path = some "u" := by rw [hcore]
  obtain ⟨hresolution, -⟩ := resolution_coherent (.scripted {}) newestTarget builtCheckout w' r
  obtain ⟨-, hcoherent⟩ := hresolution newestDocument hrun
  obtain ⟨hdownload, jar, hfile, hjar, hthere, -⟩ := hcoherent.file "u" hpath (by decide)
  have hplace : jar = ⟨.slash, ["u", "build", "libs",
      "UniversalModCore-1.12.2-forge-1.2-abc1234.jar"]⟩ := by
    rw [hjar, Version.baseOf, hhere, hversion]
    decide +kernel
  refine ⟨r, w', hrun, hcoherent.umcVersion.trans (congrArg some hversion), ?_, ?_, hdownload⟩
  · rw [hfile, hplace]
    decide +kernel
  · rw [← hplace]
    exact hthere

end Resolution

end ModBuild
