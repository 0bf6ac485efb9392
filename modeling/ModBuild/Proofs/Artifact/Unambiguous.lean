import ModBuild.Proofs.Artifact.Locate

/-!
# The names of builds

A build of the core library is chosen by a variant and a version.  All its names are joined of
the platform, the brand and the version with dashes between them, and the platform and the
version can have dashes of their own.

* No brand has a dash, so the platform ends at the last dash of a key (`Variant.key_injective`).
* If the platform has no dash either, it ends at the first dash of the name of the build and the
  brand at the second, whatever is in the version (`Build.name_inj`).
* The name of the build can be told from every longer name that it is a part of.  In a URL it
  stands twice, so the length of the URL tells its length (`Build.url_inj`).

Hence no two builds share a file name, a URL, a coordinate or a place
(`build_names_distinct`).
-/

namespace ModBuild

open Text

/-! ## Keys of variants -/

theorem Brand.dash_not_mem_name (b : Brand) : '-' ∉ b.name.toList := by
  cases b <;> decide

/-- Every name is read as its brand. -/
theorem Brand.parse?_name (b : Brand) : parse? b.name = some b := by
  cases b <;> decide +kernel

theorem Brand.name_injective : Function.Injective Brand.name := by
  intro b b' h
  have hread : parse? b.name = some b' := by rw [h, parse?_name]
  exact Option.some.inj ((parse?_name b).symm.trans hread)

namespace Variant

variable {v v' : Variant}

theorem toList_key (v : Variant) :
    v.key.toList = v.platform.toList ++ '-' :: v.brand.name.toList := by
  simp [key]

theorem eq_of_parts (hplatform : v.platform.toList = v'.platform.toList)
    (hbrand : v.brand.name.toList = v'.brand.name.toList) : v = v' := by
  obtain ⟨platform, brand⟩ := v
  obtain ⟨platform', brand'⟩ := v'
  cases String.toList_inj.1 hplatform
  cases Brand.name_injective (String.toList_inj.1 hbrand)
  rfl

/-- A key is of one variant only, whatever dashes are in the platform. -/
theorem key_injective : Function.Injective key := by
  intro v v' h
  have hchars : v.key.toList = v'.key.toList := congrArg String.toList h
  rw [toList_key, toList_key] at hchars
  obtain ⟨hplatform, hbrand⟩ := append_cons_inj_last v.brand.dash_not_mem_name
    v'.brand.dash_not_mem_name hchars
  exact eq_of_parts hplatform hbrand

end Variant

namespace Artifact

/-! ## Names of a build -/

/-- A build of the core library. -/
structure Build where
  /-- What it is for. -/
  variant : Variant
  version : String
deriving DecidableEq

namespace Build

/-- The key of the variant and the version. -/
def name (b : Build) : String :=
  b.variant.key ++ "-" ++ b.version

/-- No dash is in the platform. -/
def Undashed (b : Build) : Prop :=
  '-' ∉ b.variant.platform.toList

/-- No slash is in the platform or in the version. -/
structure Unslashed (b : Build) : Prop where
  platform : '/' ∉ b.variant.platform.toList
  version : '/' ∉ b.version.toList

variable {b b' : Build} {settings : Settings}

theorem toList_name (b : Build) :
    b.name.toList = b.variant.platform.toList ++
      '-' :: (b.variant.brand.name.toList ++ '-' :: b.version.toList) := by
  simp [name, Variant.toList_key]

/-- The first dash and the second one end the platform and the brand. -/
theorem name_inj (h : b.Undashed) (h' : b'.Undashed) (he : b.name = b'.name) : b = b' := by
  have hchars : b.name.toList = b'.name.toList := congrArg String.toList he
  rw [toList_name, toList_name] at hchars
  obtain ⟨hplatform, hrest⟩ := append_cons_inj_first h h' hchars
  obtain ⟨hbrand, hversion⟩ := append_cons_inj_first b.variant.brand.dash_not_mem_name
    b'.variant.brand.dash_not_mem_name hrest
  obtain ⟨v, version⟩ := b
  obtain ⟨v', version'⟩ := b'
  cases Variant.eq_of_parts hplatform hbrand
  cases String.toList_inj.1 hversion
  rfl

/-! ## Longer names -/

/-- The name of the file of a build. -/
def file (b : Build) : String :=
  fileName b.variant.key b.version

/-- The publication of a build. -/
def published (b : Build) (settings : Settings) : Publication :=
  publication settings b.variant.key b.version

theorem file_inj (he : b.file = b'.file) : b.name = b'.name := by
  have hname (b : Build) : b.file.toList =
      (baseName ++ "-").toList ++ (b.name.toList ++ ".jar".toList) := by
    simp [file, fileName, name]
  have hchars : b.file.toList = b'.file.toList := congrArg String.toList he
  rw [hname, hname] at hchars
  exact String.toList_inj.1 (List.append_cancel_right (List.append_cancel_left hchars))

theorem coordinate_inj
    (he : (b.published settings).coordinate = (b'.published settings).coordinate) :
    b.name = b'.name := by
  have hchars := congrArg String.toList he
  simp only [published, publication, String.toList_append] at hchars
  exact String.toList_inj.1 (by simpa [name] using List.append_cancel_left hchars)

theorem url_inj (he : (b.published settings).url = (b'.published settings).url) :
    b.name = b'.name := by
  have hname (b : Build) : (b.published settings).url.toList =
      (settings.mavenUrl ++ "/cam72cam/universalmodcore/UniversalModCore/").toList ++
        (b.name.toList ++ ("/UniversalModCore-".toList ++ (b.name.toList ++ ".jar".toList))) := by
    rw [published, publication_url]
    simp [name]
  have hchars : (b.published settings).url.toList = (b'.published settings).url.toList :=
    congrArg String.toList he
  rw [hname, hname] at hchars
  exact String.toList_inj.1 (append_twice_inj (List.append_cancel_left hchars))

/-! ## Places -/

theorem Unslashed.isSegment (h : b.Unslashed) : Path.IsSegment b.file := by
  refine isSegment_fileName ?_ h.version
  rw [Variant.toList_key, List.mem_append, List.mem_cons]
  rintro (hplatform | hdash | hbrand)
  · exact h.platform hplatform
  · exact absurd hdash (by decide)
  · revert hbrand
    cases b.variant.brand <;> decide

/-- A place tells the name of the build, wherever the run starts. -/
theorem place_inj {workingDir : Option Path} {core : Core} {w w' : World} {a a' : Artifact}
    (h : b.Unslashed) (h' : b'.Unslashed)
    (hlocated : Located settings workingDir core b.variant.key b.version w a)
    (hlocated' : Located settings workingDir core b'.variant.key b'.version w' a')
    (hplace : a.place = a'.place) : b.name = b'.name := by
  rw [Located] at hlocated hlocated'
  cases hcheckout : core.checkout? with
  | none =>
    rw [hcheckout] at hlocated hlocated'
    dsimp only at hlocated hlocated'
    rw [hlocated, hlocated', place, place, Place.url.injEq] at hplace
    exact url_inj hplace
  | some path =>
    rw [hcheckout] at hlocated hlocated'
    dsimp only at hlocated hlocated'
    rw [hlocated.1, hlocated'.1, place, place, Place.path.injEq] at hplace
    have hlast := congrArg Path.name hplace
    rw [name_builtPath _ _ h.isSegment, name_builtPath _ _ h'.isSegment] at hlast
    exact file_inj hlast

end Build

/-- The names that choose a build of the core library are unambiguous.  Different variants have
different keys.  Different builds for platforms without a dash have different file names, URLs
and coordinates.  If no slash is in their platforms and versions, none of them is ever located
at the place of the other, by a path or by a URL. -/
theorem build_names_distinct :
    Function.Injective Variant.key ∧
    ∀ b b' : Build, b.Undashed → b'.Undashed → b ≠ b' →
      fileName b.variant.key b.version ≠ fileName b'.variant.key b'.version ∧
      (∀ settings : Settings,
        (publication settings b.variant.key b.version).url ≠
          (publication settings b'.variant.key b'.version).url ∧
        (publication settings b.variant.key b.version).coordinate ≠
          (publication settings b'.variant.key b'.version).coordinate) ∧
      (b.Unslashed → b'.Unslashed →
        ∀ (settings : Settings) (workingDir : Option Path) (core : Core) (w w' w₁ w₁' : World)
          (a a' : Artifact),
          (locate settings workingDir core b.variant.key b.version).runIn w = (.ok a, w₁) →
          (locate settings workingDir core b'.variant.key b'.version).runIn w' = (.ok a', w₁') →
          a.place ≠ a'.place) := by
  refine ⟨Variant.key_injective, fun b b' hdash hdash' hne => ?_⟩
  have hname : b.name ≠ b'.name := fun he => hne (Build.name_inj hdash hdash' he)
  refine ⟨fun he => hname (Build.file_inj he), fun settings => ⟨fun he => hname (Build.url_inj he),
    fun he => hname (Build.coordinate_inj he)⟩, fun hslash hslash' => ?_⟩
  intro settings workingDir core w w' w₁ w₁' a a' hrun hrun' hplace
  exact hname (Build.place_inj hslash hslash' (locate_located hrun) (locate_located hrun') hplace)

/-- A build whose version ends like the key of another variant. -/
def forgeBuild : Build := ⟨⟨"1.20", .forge⟩, "2.5-1.20-quilt"⟩

/-- A build for another brand. -/
def quiltBuild : Build := ⟨⟨"1.20", .quilt⟩, "2.5"⟩

/-- A world with a checkout in which both were built. -/
def twiceBuilt : World :=
  .offline ⟨[
    (["u"], .directory),
    (["u", "build"], .directory),
    (["u", "build", "libs"], .directory),
    (["u", "build", "libs", "UniversalModCore-1.20-forge-2.5-1.20-quilt.jar"], .file [0x50]),
    (["u", "build", "libs", "UniversalModCore-1.20-quilt-2.5.jar"], .file [0x51])]⟩

theorem build_names_distinct_twiceBuilt :
    forgeBuild.Undashed ∧ quiltBuild.Undashed ∧ forgeBuild ≠ quiltBuild ∧
      forgeBuild.Unslashed ∧ quiltBuild.Unslashed ∧
      ∃ a a' w w', (locate {} none ⟨"latest", some "u"⟩ forgeBuild.variant.key
          forgeBuild.version).runIn twiceBuilt = (.ok a, w) ∧
        (locate {} none ⟨"latest", some "u"⟩ quiltBuild.variant.key
          quiltBuild.version).runIn twiceBuilt = (.ok a', w') ∧
        a.place ≠ a'.place := by
  have hdash : forgeBuild.Undashed := (by decide +kernel : '-' ∉ "1.20".toList)
  have hdash' : quiltBuild.Undashed := (by decide +kernel : '-' ∉ "1.20".toList)
  have hne : forgeBuild ≠ quiltBuild := by decide +kernel
  have hslash : forgeBuild.Unslashed := ⟨by decide +kernel, by decide +kernel⟩
  have hslash' : quiltBuild.Unslashed := ⟨by decide +kernel, by decide +kernel⟩
  have hgives (b : Build) (hb : b ∈ [forgeBuild, quiltBuild]) :
      (locate {} none ⟨"latest", some "u"⟩ b.variant.key b.version).gives twiceBuilt
        (fun _ _ => true) = true := by
    revert b
    decide +kernel
  obtain ⟨a, w, hrun, -⟩ := Action.gives_iff.1 (hgives _ (.head _))
  obtain ⟨a', w', hrun', -⟩ := Action.gives_iff.1 (hgives _ (.tail _ (.head _)))
  obtain ⟨-, -, hplace⟩ := build_names_distinct.2 forgeBuild quiltBuild hdash hdash' hne
  exact ⟨hdash, hdash', hne, hslash, hslash', a, a', w, w', hrun, hrun',
    hplace hslash hslash' {} none ⟨"latest", some "u"⟩ _ _ _ _ a a' hrun hrun'⟩

/-- A dash in the platform can be taken for the one behind it. -/
example :
    (⟨⟨"1-forge", .forge⟩, "2"⟩ : Build).name = (⟨⟨"1", .forge⟩, "forge-2"⟩ : Build).name := by
  decide +kernel

end Artifact

end ModBuild
