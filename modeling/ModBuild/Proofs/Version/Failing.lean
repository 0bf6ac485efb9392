import ModBuild.Proofs.Files.Temporary
import ModBuild.Proofs.World.Failing
import ModBuild.Version.Resolve

/-!
# How a version is not found

A resolution of the version fails as promised if the tree has no version line, if the tree
cannot be had or read, or if the temporary directory makes trouble.  A source control that
fails as one of its kind keeps this promise.  It is broken by the build file alone: its path
holds the character U+0000, or what it holds is no UTF-8 (`Undecodable`).  Every such failure
gets out, from a checkout as from a clone (`resolve_escapes_iff`).
-/

namespace ModBuild

open ModBuild.Action

/-- A failure to find a version that callers are told of. -/
def Failure.IsOfVersion (f : Failure) : Prop :=
  f.kind = .versionNotFound ∨ f.kind = .sourceUnavailable ∨ f.kind = .tempDir

/-- A failure that comes of an outcome and is none that callers are told of. -/
def Escaping {α : Type} (outcome : Except Failure α) (f : Failure) : Prop :=
  outcome = .error f ∧ ¬ f.IsOfVersion

theorem not_escaping_ok {α : Type} (a : α) (f : Failure) : ¬ Escaping (.ok a) f :=
  fun h => nomatch h.1

theorem not_escaping_of {α : Type} {g : Failure} (h : g.IsOfVersion) (f : Failure) :
    ¬ Escaping (.error g : Except Failure α) f := by
  rintro ⟨⟨⟩, hnot⟩
  exact hnot h

/-- A source control whose failures are those of Git and of the file system. -/
structure SourceControl.FailsAsSource (source : SourceControl) : Prop where
  clone (url branch : String) (target : Path) (shallow : Bool) :
    FailsOnly (fun f => f.isOfSource = true) (source.clone url branch target shallow)
  revision (tree : Path) : FailsOnly (fun f => f.isOfSource = true) (source.revision tree)

namespace Version

variable {source : SourceControl} {settings : Settings} {workingDir : Option Path} {core : Core}
variable {branch : String} {tree file : Path} {start : String} {w : World} {f : Failure}

/-- Why a file that is there is no text, or its path no path. -/
inductive Undecodable (file : Path) (w : World) : Failure → Prop
  | null (h : file.hasNull = true) : Undecodable file w .nullInPath
  | octets {octets : List UInt8} {e : Encoding.DecodeError} (hfile : w.contents file = .ok octets)
      (h : Encoding.Utf8.decode octets = .error e) : Undecodable file w (.notText e)

theorem Undecodable.not_isOfVersion (h : Undecodable file w f) : ¬ f.IsOfVersion := by
  cases h <;> simp [Failure.IsOfVersion, Failure.kind]

/-- Only what the file holds counts. -/
theorem Undecodable.congr {v : World} (h : Undecodable file v f)
    (hsame : v.contents file = w.contents file) : Undecodable file w f := by
  cases h with
  | null h => exact .null h
  | octets hfile h => exact .octets (hsame ▸ hfile) h

/-- Reading the version line changes nothing and fails as promised if the file is a text. -/
theorem runIn_readLine (file : Path) (start : String) (w : World) :
    ((readLine file start).runIn w).2 = w ∧
      ∀ f, Escaping ((readLine file start).runIn w).1 f ↔ Undecodable file w f := by
  rw [readLine, runIn_bind_ok (runIn_attempt _ w), runIn_readFile]
  cases hcontents : w.contents file with
  | error g =>
    cases hnull : file.hasNull with
    | true =>
      rw [contents_of_hasNull hnull] at hcontents
      cases hcontents
      refine ⟨rfl, fun f => ⟨?_, ?_⟩⟩
      · rintro ⟨⟨⟩, -⟩
        exact .null hnull
      · intro h
        cases h with
        | null => exact ⟨rfl, (Undecodable.null (w := w) hnull).not_isOfVersion⟩
        | octets hfile =>
          rw [contents_of_hasNull hnull] at hfile
          cases hfile
    | false =>
      obtain ⟨cause, rfl⟩ := contents_eq_error hcontents hnull
      refine ⟨rfl, fun f => iff_of_false (not_escaping_of (Or.inr (Or.inl rfl)) f) fun h => ?_⟩
      cases h with
      | null h =>
        rw [hnull] at h
        cases h
      | octets hfile =>
        rw [hcontents] at hfile
        cases hfile
  | ok octets =>
    have hnull : file.hasNull ≠ true := by
      intro h
      rw [contents_of_hasNull h] at hcontents
      cases hcontents
    dsimp only
    cases htext : Encoding.Utf8.decode octets with
    | error e =>
      refine ⟨rfl, fun f => ⟨?_, fun h => ?_⟩⟩
      · rintro ⟨⟨⟩, -⟩
        exact .octets hcontents htext
      · refine ⟨?_, h.not_isOfVersion⟩
        cases h with
        | null h => exact absurd h hnull
        | octets hfile h =>
          cases hcontents.symm.trans hfile
          cases htext.symm.trans h
          rfl
    | ok text =>
      have hnot (f : Failure) : ¬ Undecodable file w f := by
        intro h
        cases h with
        | null h => exact hnull h
        | octets hfile h =>
          cases hcontents.symm.trans hfile
          cases htext.symm.trans h
      dsimp only
      cases ofText? start.toList text with
      | none => exact ⟨rfl, fun f => iff_of_false (not_escaping_of (Or.inl rfl) f) (hnot f)⟩
      | some line => exact ⟨rfl, fun f => iff_of_false (not_escaping_ok _ f) (hnot f)⟩

/-- The version of a tree fails as promised if the build file is a text. -/
theorem ofTree_escapes_iff (hsource : source.FailsAsSource) (settings : Settings) (tree : Path)
    (w : World) (f : Failure) :
    Escaping ((ofTree source settings tree).runIn w).1 f ↔
      Undecodable (tree / .ofString settings.buildFile) w f := by
  obtain ⟨hstill, hread⟩ :=
    runIn_readLine (tree / .ofString settings.buildFile) settings.versionPrefix w
  rw [ofTree]
  rcases hline : (readLine (tree / .ofString settings.buildFile) settings.versionPrefix).runIn w
    with ⟨g | line, v⟩
  · rw [hline] at hread
    rw [runIn_bind_error hline, ← hread]
  · rw [hline] at hread
    rw [runIn_bind_ok hline, runIn_bind_ok (runIn_attempt _ v), ← hread]
    refine iff_of_false ?_ (not_escaping_ok line f)
    rcases hrevision : (source.revision tree).runIn v with ⟨g | revision, v'⟩
    · refine not_escaping_of (Or.inr (Or.inl ?_)) f
      rw [if_pos (hsource.revision tree _ _ _ hrevision)]
      rfl
    · exact not_escaping_ok _ f

/-- Check out a branch for its version. -/
def checkOut (source : SourceControl) (settings : Settings) (branch : String) (tree : Path) :
    Action Unit := do
  write .debug logger
    ("Resolving latest core version from " ++ settings.repository ++ " at " ++ branch)
  source.clone settings.repository branch tree true

/-- The version of a clone fails as promised if there is no clone, or its build file is a
text. -/
theorem ofClone_escapes_iff (hsource : source.FailsAsSource) (settings : Settings)
    (branch : String) (tree : Path) (w : World) (f : Failure) :
    Escaping ((ofClone source settings branch tree).runIn w).1 f ↔
      ∃ v, (checkOut source settings branch tree).runIn w = (.ok (), v) ∧
        Undecodable (tree / .ofString settings.buildFile) v f := by
  rw [ofClone, checkOut, runIn_bind_ok (runIn_write _ _ _ w), runIn_bind_ok (runIn_write _ _ _ w),
    runIn_bind_ok (runIn_attempt _ _)]
  generalize { w with log := w.log ++ _ } = u
  rcases hclone : (source.clone settings.repository branch tree true).runIn u with ⟨g | _, v⟩
  · refine iff_of_false (not_escaping_of (Or.inr (Or.inl ?_)) f) nofun
    rw [if_pos (hsource.clone _ _ _ _ _ _ _ hclone)]
    rfl
  · refine (ofTree_escapes_iff hsource settings tree v f).trans ⟨fun h => ⟨v, rfl, h⟩, ?_⟩
    rintro ⟨_, ⟨⟩, h⟩
    exact h

/-- The failures of the build file that get out of a resolution of the version. -/
inductive Escapes (source : SourceControl) (settings : Settings) (workingDir : Option Path)
    (core : Core) (branch : String) (w : World) : Failure → Prop
  /-- The build file of the checkout is no text. -/
  | checkout {path : String} {f : Failure} (newest : core.isLatest = true)
      (isLocal : core.checkout? = some path)
      (h : Undecodable (baseOf workingDir w / .ofString path / .ofString settings.buildFile) w f) :
      Escapes source settings workingDir core branch w f
  /-- The build file of the clone is no text. -/
  | clone {v : World} {f : Failure} (newest : core.isLatest = true)
      (isRemote : core.checkout? = none) (makes : w.MakesTemporary)
      (cloned : (checkOut source settings branch (.ofLocation w.nextTemporary)).runIn
        w.withNextTemporary = (.ok (), v))
      (h : Undecodable (.ofLocation w.nextTemporary / .ofString settings.buildFile) v f) :
      Escapes source settings workingDir core branch w f

/-- The removal of a temporary directory only adds failures that callers are told of. -/
theorem afterTemporary_escapes_iff {α : Type} (l : Location) (r : Except Failure α × World)
    (f : Failure) : Escaping (afterTemporary logger l r).1 f ↔ Escaping r.1 f := by
  obtain ⟨outcome, v⟩ := r
  rw [afterTemporary]
  split
  · exact Iff.rfl
  · cases outcome with
    | ok a =>
      exact iff_of_false (not_escaping_of (Or.inr (Or.inr rfl)) f) (not_escaping_ok a f)
    | error g => exact Iff.rfl

/-- With a source control that fails as one of its kind, a resolution of the version gives a
version or fails as promised, but for a build file whose path holds U+0000 or that is no
UTF-8. -/
theorem resolve_escapes_iff (source : SourceControl) (hsource : source.FailsAsSource)
    (settings : Settings) (workingDir : Option Path) (core : Core) (branch : String) (w : World)
    (f : Failure) :
    (((resolve source settings workingDir core branch).runIn w).1 = .error f ∧
        ¬ f.IsOfVersion) ↔
      Escapes source settings workingDir core branch w f := by
  change Escaping _ f ↔ _
  unfold resolve
  cases hlatest : core.isLatest with
  | false =>
    refine iff_of_false (not_escaping_ok core.version f) fun h => ?_
    cases h with
    | checkout newest | clone newest =>
      rw [hlatest] at newest
      cases newest
  | true =>
    rw [if_pos rfl]
    cases hcheckout : core.checkout? with
    | some path =>
      dsimp only
      rw [runIn_bind_ok (runIn_get w), runIn_bind_ok (runIn_write _ _ _ w)]
      refine (ofTree_escapes_iff hsource settings _ _ f).trans ⟨fun h => ?_, fun h => ?_⟩
      · exact .checkout hlatest hcheckout (h.congr rfl)
      · cases h with
        | checkout _ isLocal h =>
          cases hcheckout.symm.trans isLocal
          exact h.congr rfl
        | clone _ isRemote =>
          rw [hcheckout] at isRemote
          cases isRemote
    | none =>
      dsimp only
      by_cases hmake : w.MakesTemporary
      · rw [runIn_withTemporary _ _ hmake, afterTemporary_escapes_iff, ofClone_escapes_iff hsource]
        constructor
        · rintro ⟨v, hcloned, h⟩
          exact .clone hlatest hcheckout hmake hcloned h
        · intro h
          cases h with
          | checkout _ isLocal =>
            rw [hcheckout] at isLocal
            cases isLocal
          | clone _ _ _ cloned h => exact ⟨_, cloned, h⟩
      · obtain ⟨cause, hrun⟩ := runIn_withTemporary_of_not logger
          (ofClone source settings branch) hmake
        rw [hrun]
        refine iff_of_false (not_escaping_of (Or.inr (Or.inr rfl)) f) fun h => ?_
        cases h with
        | checkout _ isLocal =>
          rw [hcheckout] at isLocal
          cases isLocal
        | clone _ _ makes => exact hmake makes

/-- A source control for which every branch is empty. -/
def emptyBranches : SourceControl where
  clone _ _ _ _ := pure ()
  revision _ := pure "abc1234"

theorem failsAsSource_emptyBranches : emptyBranches.FailsAsSource :=
  ⟨fun _ _ _ _ => .pure _, fun _ => .pure _⟩

/-- A world with a checkout whose build file is no UTF-8. -/
def foreignCheckout : World :=
  .offline ⟨[(["core"], .directory), (["core", "build.gradle"], .file [0xFF])]⟩

theorem resolve_escapes_foreignCheckout :
    emptyBranches.FailsAsSource ∧
      ∃ f, ((resolve emptyBranches {} none ⟨"latest", some "core"⟩ "1.12.2-forge").runIn
        foreignCheckout).1 = .error f ∧ ¬ f.IsOfVersion := by
  have hrun : ((resolve emptyBranches {} none ⟨"latest", some "core"⟩ "1.12.2-forge").runIn
      foreignCheckout).1 = .error (.notText ⟨.utf8, 0, 1, 0xFF, .badStart⟩) := by
    decide +kernel
  exact ⟨failsAsSource_emptyBranches, _, hrun, by simp [Failure.IsOfVersion, Failure.kind]⟩

theorem resolve_escapes_emptyBranches :
    emptyBranches.FailsAsSource ∧
      ∀ f, ((resolve emptyBranches {} none ⟨"latest", none⟩ "1.12.2-forge").runIn
        (.offline .empty)).1 = .error f → f.IsOfVersion := by
  refine ⟨failsAsSource_emptyBranches, fun f hf => ?_⟩
  by_contra hnot
  have hescapes := (resolve_escapes_iff emptyBranches failsAsSource_emptyBranches {} none
    ⟨"latest", none⟩ "1.12.2-forge" (.offline .empty) f).1 ⟨hf, hnot⟩
  cases hescapes with
  | checkout _ isLocal => cases isLocal
  | clone _ _ _ cloned h =>
    cases cloned
    cases h with
    | null h => exact absurd h (by decide +kernel)
    | octets hfile =>
      have hmissing : ((World.offline .empty).withNextTemporary.contents
          (.ofLocation (World.offline .empty).nextTemporary / .ofString "build.gradle")).toOption =
          none := by
        decide +kernel
      cases hmissing.symm.trans (congrArg Except.toOption hfile)

end Version

end ModBuild
