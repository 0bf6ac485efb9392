import ModBuild.Proofs.Resolution.Coherent
import ModBuild.Proofs.Version.Api
import ModBuild.Proofs.Version.Line

/-!
# The API of the newest version

The newest version is the version line of a source tree, a dash and the revision of the tree
(`ReadOff.exists_line`).  The API version ends before the dash, since a version line has no
line feed at its end.  So the variables that are about the API are those of the version line
(`ApiVariables`): with another revision there is a table exactly if there was one, and these
variables are the same in it (`newest_api`).
-/

namespace ModBuild

open ModBuild.Action

/-! ## The tree of the newest version -/

namespace Version

variable {source : SourceControl} {settings : Settings} {workingDir : Option Path} {core : Core}
variable {branch version : String} {tree : Path} {w : World}

/-- The tree that the newest version is read off, in the world in which this happens. -/
inductive SourceTree (source : SourceControl) (settings : Settings) (workingDir : Option Path)
    (core : Core) (branch : String) (w : World) : Path → World → Prop where
  /-- It is the local checkout. -/
  | checkout {path : String} {v : World} (isLocal : core.checkout? = some path)
    (files : v.files = w.files) (stage : v.stage = w.stage) :
    SourceTree source settings workingDir core branch w (baseOf workingDir w / .ofString path) v
  /-- It is a clone of the branch in a fresh directory. -/
  | clone {v v' : World} (isRemote : core.checkout? = none)
    (files : v.files = w.withNextTemporary.files)
    (cloned : (source.clone settings.repository branch (.ofLocation w.nextTemporary) true).runIn v =
      (.ok (), v')) :
    SourceTree source settings workingDir core branch w (.ofLocation w.nextTemporary) v'

theorem Found.exists_tree (h : Found source settings workingDir core branch w version)
    (hlatest : core.isLatest = true) :
    ∃ tree v, SourceTree source settings workingDir core branch w tree v ∧
      ReadOff source settings tree v version := by
  cases h with
  | pinned named => exact absurd (beq_iff_eq.1 hlatest) named
  | checkout _ isLocal files stage read => exact ⟨_, _, .checkout isLocal files stage, read⟩
  | clone _ isRemote files cloned read => exact ⟨_, _, .clone isRemote files cloned, read⟩

/-- A version that was read off a tree is its version line, a dash and its revision. -/
theorem ReadOff.exists_line (h : ReadOff source settings tree w version) :
    ∃ line revision w',
      (readLine (tree / .ofString settings.buildFile) settings.versionPrefix).runIn w =
        (.ok line, w) ∧
      (source.revision tree).runIn w = (.ok revision, w') ∧
      version = line ++ "-" ++ revision := by
  obtain ⟨octets, text, line, revision, w', hfile, htext, hline, hrevision, rfl⟩ := h
  rw [← Encoding.Utf8.decode_eq_ok_iff.1 htext] at hfile
  refine ⟨.ofList line, revision, w', ?_, hrevision, rfl⟩
  rw [runIn_readLine_of_text hfile, hline]

/-- A version line has no line feed at its end. -/
theorem readLine_ends {file : Path} {start line : String} {w' : World}
    (h : (readLine file start).runIn w = (.ok line, w')) : line.toList.getLast? ≠ some '\n' := by
  obtain ⟨-, octets, text, found, -, -, hfound, rfl⟩ := readLine_ok h
  rw [String.toList_ofList]
  intro hlast
  have hline := (bare_of_ofText? hfound).oneLine '\n' (List.mem_of_getLast? hlast)
  exact absurd hline (by decide)

end Version

/-! ## The variables about the API -/

namespace Variables

variable {dialect : Dialect} {d : Descriptor} {v : Variant} {artifact : Artifact}
variable {line version : String} {api : ApiVersion} {t : Table}

/-- The names of the variables that are about the API of the core library. -/
def apiNames : List String :=
  ["UMC_API", "UMC_API_NEXT", "FORGE_STRING_DEPENDENCIES", "FORGE_TOML_DEPENDENCIES"]

/-- The variables about an API version: its text and that of the next, and the dependencies of
a mod with the core library in the range between the two. -/
structure ApiVariables (m : Mod) (brand : Brand) (api : ApiVersion) (t : Table) : Prop where
  first : t.get? "UMC_API" = some api.text
  next : t.get? "UMC_API_NEXT" = some api.next.text
  string : t.get? "FORGE_STRING_DEPENDENCIES" = some (requirements (m.dependencies ++
    [⟨"universalmodcore", "[" ++ api.text ++ ", " ++ api.next.text ++ ")"⟩]))
  toml : t.get? "FORGE_TOML_DEPENDENCIES" = some ((tomlBlocks? brand m.id (m.dependencies ++
    [⟨"universalmodcore", "[" ++ api.text ++ ", " ++ api.next.text ++ ")"⟩])).getD "")

/-- An API version fixes the variables about it. -/
theorem ApiVariables.unique {m : Mod} {brand : Brand} {t' : Table} (h : ApiVariables m brand api t)
    (h' : ApiVariables m brand api t') : ∀ name ∈ apiNames, t.get? name = t'.get? name := by
  simp only [apiNames, List.forall_mem_cons]
  exact ⟨h.first.trans h'.first.symm, h.next.trans h'.next.symm, h.string.trans h'.string.symm,
    h.toml.trans h'.toml.symm, fun _ hname => nomatch hname⟩

theorem apiVariables_of_build (h : build dialect d v version artifact = .ok t) :
    ∃ api, apiOf version = .ok api ∧ ApiVariables d.mod v.brand api t := by
  obtain ⟨api, hapi, hvalue⟩ := get?_of_build h
  exact ⟨api, apiOf_eq_ok_iff.2 hapi, {
    first := hvalue (by simp [entriesOf])
    next := hvalue (by simp [entriesOf])
    string := hvalue (by simp [entriesOf, allDependencies, coreDependency, coreId])
    toml := hvalue (by simp [entriesOf, allDependencies, coreDependency, coreId]) }⟩

theorem apiOf_dash (h : line.toList.getLast? ≠ some '\n') (revision : String) :
    apiOf (line ++ "-" ++ revision) = .ok api ↔ apiOf line = .ok api := by
  rw [apiOf_eq_ok_iff, apiOf_eq_ok_iff, ApiVersion.ofVersion?_dash h]

/-- The check of the version looks at the line only, and the dash is not blank. -/
theorem exists_build_dash_iff (h : line.toList.getLast? ≠ some '\n') (revision : String) :
    (∃ t, build dialect d v (line ++ "-" ++ revision) artifact = .ok t) ↔
      ∀ c ∈ [textCheck "mod.package" d.mod.pkg, versionCheck line,
        textCheck "mod.class" d.mod.className, textCheck "mod.name" d.mod.name,
        textCheck "mod.id" d.mod.id, textCheck "mod.version" d.mod.version], c.Holds := by
  have hdash : (textCheck "umc.version" (line ++ "-" ++ revision)).Holds := by
    change Text.trimmed (line ++ "-" ++ revision) ≠ ""
    rw [Ne, Text.trimmed_eq_empty_iff]
    intro hblank
    exact absurd (hblank '-' (by simp)) (by decide)
  have hversion : (versionCheck (line ++ "-" ++ revision)).Holds ↔ (versionCheck line).Holds := by
    simp only [versionCheck, ApiVersion.ofVersion?_dash h]
  rw [exists_build_iff]
  simp only [checks, List.forall_mem_cons, hdash, hversion, true_and]

end Variables

namespace Resolution

open Variables Version

/-- The API version of the newest version is that of the version line. -/
theorem newest_api :
    (∀ (line revision : String) (api : ApiVersion), line.toList.getLast? ≠ some '\n' →
      (apiOf (line ++ "-" ++ revision) = .ok api ↔ apiOf line = .ok api)) ∧
    (∀ (file : Path) (start line : String) (w w' : World),
      (readLine file start).runIn w = (.ok line, w') → line.toList.getLast? ≠ some '\n') ∧
    (∀ (source : SourceControl) (target : Target) (d : Descriptor) (r : Resolution)
        (w w' : World), d.core.isLatest = true →
      (ofDescriptor source target d).runIn w = (.ok r, w') →
      ∃ tree v line revision v' api,
        SourceTree source target.settings target.workingDir d.core target.variant.key w tree v ∧
        (readLine (tree / .ofString target.settings.buildFile) target.settings.versionPrefix).runIn
          v = (.ok line, v) ∧
        (source.revision tree).runIn v = (.ok revision, v') ∧
        r.version = line ++ "-" ++ revision ∧
        apiOf line = .ok api ∧
        ApiVariables d.mod target.variant.brand api r.table) ∧
    ∀ (dialect : Dialect) (d : Descriptor) (v : Variant) (line revision revision' : String)
        (artifact artifact' : Artifact), line.toList.getLast? ≠ some '\n' →
      ((∃ t, build dialect d v (line ++ "-" ++ revision) artifact = .ok t) ↔
        ∃ t, build dialect d v (line ++ "-" ++ revision') artifact' = .ok t) ∧
      ∀ t t', build dialect d v (line ++ "-" ++ revision) artifact = .ok t →
        build dialect d v (line ++ "-" ++ revision') artifact' = .ok t' →
        ∀ name ∈ apiNames, t.get? name = t'.get? name := by
  refine ⟨fun line revision api h => apiOf_dash h revision, fun _ _ _ _ _ => readLine_ends,
    fun source target d r w w' hlatest h => ?_,
    fun dialect d v line revision revision' artifact artifact' h => ⟨?_, fun t t' ht ht' => ?_⟩⟩
  · obtain ⟨rfl, hfound, -, hbuild⟩ := ofDescriptor_ok h
    obtain ⟨tree, v, htree, hread⟩ := hfound.exists_tree hlatest
    obtain ⟨line, revision, v', hline, hrevision, hversion⟩ := hread.exists_line
    obtain ⟨api, hapi, hvariables⟩ := apiVariables_of_build hbuild
    rw [hversion, apiOf_dash (readLine_ends hline)] at hapi
    exact ⟨tree, v, line, revision, v', api, htree, hline, hrevision, hversion, hapi, hvariables⟩
  · rw [exists_build_dash_iff h, exists_build_dash_iff h]
  · obtain ⟨api, hapi, hvariables⟩ := apiVariables_of_build ht
    obtain ⟨api', hapi', hvariables'⟩ := apiVariables_of_build ht'
    rw [apiOf_dash h] at hapi hapi'
    cases hapi.symm.trans hapi'
    exact hvariables.unique hvariables'

/-- A descriptor that asks for the newest version of the branch. -/
def newestDescriptor : Descriptor :=
  ⟨⟨"p", "C", "N", "i", "1", [], []⟩, ⟨"latest", none⟩, none⟩

/-- A source control whose branches have a version line, and whose revisions look like the end
of a version. -/
def oddRevisions : SourceControl :=
  .scripted {
    written := [(["build.gradle"], .file "String umcVersion = \"1.09\"\n".toUTF8.toList)]
    revision := "7.7\n" }

theorem newest_api_oddRevisions :
    ∃ r w', (ofDescriptor oddRevisions newestTarget newestDescriptor).runIn (.offline .empty) =
        (.ok r, w') ∧
      r.version = "1.09-7.7\n" ∧ r.table.get? "UMC_API" = some "1.9" ∧
      r.table.get? "FORGE_STRING_DEPENDENCIES" =
        some "required-after:universalmodcore@[1.9, 1.10)" := by
  have hgives : (ofDescriptor oddRevisions newestTarget newestDescriptor).gives (.offline .empty)
      (fun r _ => r.version == "1.09-7.7\n") = true := by
    decide +kernel
  obtain ⟨r, w', hrun, hversion⟩ := gives_iff.1 hgives
  have hversion : r.version = "1.09-7.7\n" := beq_iff_eq.1 hversion
  obtain ⟨hdash, hends, hresolution, -⟩ := newest_api
  obtain ⟨_, _, line, revision, _, api, -, hread, -, hparts, hline, hvariables⟩ :=
    hresolution oddRevisions newestTarget newestDescriptor r _ w' (by decide) hrun
  have hapi : apiOf r.version = .ok api := by
    rw [hparts]
    exact (hdash line revision api (hends _ _ _ _ _ hread)).2 hline
  have hnumbers : apiOf "1.09-7.7\n" = .ok ⟨1, 9⟩ := by decide +kernel
  rw [hversion] at hapi
  cases hnumbers.symm.trans hapi
  refine ⟨r, w', hrun, hversion, hvariables.first.trans ?_, hvariables.string.trans ?_⟩
  · decide +kernel
  · decide +kernel

end Resolution

end ModBuild
