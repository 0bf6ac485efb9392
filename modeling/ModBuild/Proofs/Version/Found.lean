import ModBuild.Proofs.Files.Temporary
import ModBuild.Version.Resolve

/-!
# Where a version comes from

Whatever the source control does, a version that was found is the one that is named, or
it was read off a source tree: the version line of the tree, a dash and the revision that
the source control tells (`ReadOff`).  The tree is the local checkout or a clone of the
branch in a fresh directory (`resolve_found`).  No other branch is ever cloned, so what
the source control would do with another one has no part in it (`resolve_congr`).
-/

namespace ModBuild

namespace Action

/-- What was done in a temporary directory was done in a fresh one. -/
theorem withTemporary_ok {α : Type} {logger : String} {body : Path → Action α} {w w' : World}
    {a : α} (h : (withTemporary logger body).runIn w = (.ok a, w')) :
    ∃ v, (body (.ofLocation w.nextTemporary)).runIn w.withNextTemporary = (.ok a, v) := by
  by_cases hmake : w.MakesTemporary
  · rw [runIn_withTemporary logger body hmake, afterTemporary] at h
    generalize (body (.ofLocation w.nextTemporary)).runIn w.withNextTemporary = after at h ⊢
    obtain ⟨outcome, v⟩ := after
    split at h
    · cases h
      exact ⟨v, rfl⟩
    · cases outcome <;> cases h
  · obtain ⟨cause, hfail⟩ := runIn_withTemporary_of_not logger body hmake
    rw [hfail] at h
    cases h

end Action

namespace Version

open ModBuild.Action

variable {source : SourceControl} {settings : Settings} {workingDir : Option Path} {core : Core}
variable {branch version : String} {tree : Path} {w w' : World}

/-- A version is read off a source tree: it is what the version line of the build file
says, a dash and the revision of the tree. -/
def ReadOff (source : SourceControl) (settings : Settings) (tree : Path) (w : World)
    (version : String) : Prop :=
  ∃ octets text line revision w',
    w.contents (tree / .ofString settings.buildFile) = .ok octets ∧
    Encoding.Utf8.decode octets = .ok text ∧
    ofText? settings.versionPrefix.toList text = some line ∧
    (source.revision tree).runIn w = (.ok revision, w') ∧
    version = .ofList line ++ "-" ++ revision

/-- Where a version comes from. -/
inductive Found (source : SourceControl) (settings : Settings) (workingDir : Option Path)
    (core : Core) (branch : String) (w : World) : String → Prop where
  /-- The descriptor names it. -/
  | pinned (named : core.version ≠ latestVersion) :
    Found source settings workingDir core branch w core.version
  /-- It is that of the local checkout. -/
  | checkout {path version : String} {v : World} (newest : core.version = latestVersion)
    (isLocal : core.checkout? = some path) (files : v.files = w.files) (stage : v.stage = w.stage)
    (read : ReadOff source settings (baseOf workingDir w / .ofString path) v version) :
    Found source settings workingDir core branch w version
  /-- It is that of a clone of the branch into a fresh directory. -/
  | clone {version : String} {v v' : World} (newest : core.version = latestVersion)
    (isRemote : core.checkout? = none) (files : v.files = w.withNextTemporary.files)
    (cloned : (source.clone settings.repository branch (.ofLocation w.nextTemporary) true).runIn v =
      (.ok (), v'))
    (read : ReadOff source settings (.ofLocation w.nextTemporary) v' version) :
    Found source settings workingDir core branch w version

/-! ## Reading a tree -/

theorem readLine_ok {file : Path} {start line : String}
    (h : (readLine file start).runIn w = (.ok line, w')) :
    w' = w ∧ ∃ octets text found, w.contents file = .ok octets ∧
      Encoding.Utf8.decode octets = .ok text ∧ ofText? start.toList text = some found ∧
      line = .ofList found := by
  rw [readLine, runIn_bind_ok (runIn_attempt _ w), runIn_readFile] at h
  cases hcontents : w.contents file with
  | error f =>
    rw [hcontents] at h
    cases f <;> cases h
  | ok octets =>
    rw [hcontents] at h
    dsimp only at h
    cases htext : Encoding.Utf8.decode octets with
    | error e =>
      rw [htext] at h
      cases h
    | ok text =>
      rw [htext] at h
      dsimp only at h
      cases hfound : ofText? start.toList text with
      | none =>
        rw [hfound] at h
        cases h
      | some found =>
        rw [hfound] at h
        cases h
        exact ⟨rfl, octets, text, found, rfl, htext, hfound, rfl⟩

theorem ofTree_readOff (h : (ofTree source settings tree).runIn w = (.ok version, w')) :
    ReadOff source settings tree w version := by
  obtain ⟨line, w₁, hline, h⟩ := of_runIn_bind_ok h
  obtain ⟨rfl, octets, text, found, hcontents, htext, hfound, rfl⟩ := readLine_ok hline
  rw [runIn_bind_ok (runIn_attempt _ w₁)] at h
  rcases hrevision : (source.revision tree).runIn w₁ with ⟨f | revision, w₂⟩
  · rw [hrevision] at h
    cases h
  · rw [hrevision] at h
    cases h
    exact ⟨octets, text, found, revision, w₂, hcontents, htext, hfound, hrevision, rfl⟩

/-! ## The version of the core library -/

theorem ofClone_ok (h : (ofClone source settings branch tree).runIn w = (.ok version, w')) :
    ∃ v v', v.files = w.files ∧
      (source.clone settings.repository branch tree true).runIn v = (.ok (), v') ∧
      ReadOff source settings tree v' version := by
  obtain ⟨_, v, hwrite, h⟩ := of_runIn_bind_ok h
  rw [runIn_bind_ok (runIn_attempt _ v)] at h
  rcases hclone : (source.clone settings.repository branch tree true).runIn v with ⟨f | _, v'⟩
  · rw [hclone] at h
    cases h
  · rw [hclone] at h
    cases hwrite
    refine ⟨_, v', ?_, hclone, ofTree_readOff h⟩
    rfl

/-- A version that was found comes from one of the three places. -/
theorem resolve_found
    (h : (resolve source settings workingDir core branch).runIn w = (.ok version, w')) :
    Found source settings workingDir core branch w version := by
  unfold resolve at h
  split at h
  · next hlatest =>
    have hnewest : core.version = latestVersion := beq_iff_eq.1 hlatest
    split at h
    · next path hpath =>
      rw [runIn_bind_ok (runIn_get w)] at h
      dsimp only at h
      obtain ⟨_, v, hwrite, h⟩ := of_runIn_bind_ok h
      cases hwrite
      refine .checkout hnewest hpath ?_ ?_ (ofTree_readOff h)
      · rfl
      · rfl
    · next hremote =>
      obtain ⟨v, h⟩ := withTemporary_ok h
      obtain ⟨v₁, v₂, hfiles, hclone, hread⟩ := ofClone_ok h
      exact .clone hnewest hremote hfiles hclone hread
  · next hpinned =>
    cases h
    exact .pinned fun he => hpinned (beq_iff_eq.2 he)

theorem ReadOff.ne_latest (h : ReadOff source settings tree w version) :
    version ≠ latestVersion := by
  obtain ⟨octets, text, line, revision, w', -, -, -, -, rfl⟩ := h
  intro he
  have hdash : '-' ∈ latestVersion.toList := by
    rw [← he]
    simp
  exact absurd hdash (by decide)

/-- The word for the newest version is no version. -/
theorem Found.ne_latest (h : Found source settings workingDir core branch w version) :
    version ≠ latestVersion := by
  cases h with
  | pinned named => exact named
  | checkout _ _ _ _ read => exact read.ne_latest
  | clone _ _ _ _ read => exact read.ne_latest

/-- The newest version of a local checkout is read off this checkout. -/
theorem Found.read_checkout (h : Found source settings workingDir core branch w version)
    (hnewest : core.version = latestVersion) {path : String} (hpath : core.checkout? = some path) :
    ∃ v, v.files = w.files ∧ v.stage = w.stage ∧
      ReadOff source settings (baseOf workingDir w / .ofString path) v version := by
  cases h with
  | pinned named => exact absurd hnewest named
  | checkout _ isLocal files stage read =>
    cases isLocal.symm.trans hpath
    exact ⟨_, files, stage, read⟩
  | clone _ isRemote =>
    cases isRemote.symm.trans hpath

/-- Only the files and the stage count. -/
theorem Found.congr {v : World} (h : Found source settings workingDir core branch v version)
    (hfiles : v.files = w.files) (hstage : v.stage = w.stage) :
    Found source settings workingDir core branch w version := by
  have hhere : v.here = w.here := congrArg World.Stage.here hstage
  have hroot : v.tempRoot = w.tempRoot := congrArg World.Stage.tempRoot hstage
  have hbase : baseOf workingDir v = baseOf workingDir w := by rw [baseOf, baseOf, hhere]
  have hnext : v.nextTemporary = w.nextTemporary := by
    rw [World.nextTemporary, World.nextTemporary, hfiles, hroot]
  have hmade : v.withNextTemporary.files = w.withNextTemporary.files := by
    rw [World.withNextTemporary, World.withNextTemporary, hfiles, hnext]
  cases h with
  | pinned named => exact .pinned named
  | checkout newest isLocal files stage read =>
    exact .checkout newest isLocal (files.trans hfiles) (stage.trans hstage) (hbase ▸ read)
  | clone newest isRemote files cloned read =>
    exact .clone newest isRemote (files.trans hmade) (hnext ▸ cloned) (hnext ▸ read)

/-! ## What the source control has to do with it -/

theorem ofTree_congr {source' : SourceControl} (hrevision : source'.revision = source.revision) :
    ofTree source' settings tree = ofTree source settings tree := by
  simp only [ofTree, hrevision]

/-- Two source controls that clone the branch alike and tell revisions alike give the same
version in the same way. -/
theorem resolve_congr {source' : SourceControl}
    (hclone : ∀ url tree shallow,
      source'.clone url branch tree shallow = source.clone url branch tree shallow)
    (hrevision : source'.revision = source.revision) :
    resolve source' settings workingDir core branch =
      resolve source settings workingDir core branch := by
  have hofClone : ofClone source' settings branch = ofClone source settings branch := by
    funext tree
    simp only [ofClone, hclone, ofTree_congr hrevision]
  simp only [resolve, hofClone, ofTree_congr hrevision]

end Version

end ModBuild
