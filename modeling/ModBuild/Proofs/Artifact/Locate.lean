import ModBuild.Artifact.Locate
import ModBuild.Proofs.Files.Paved
import ModBuild.Proofs.Path

/-!
# Where the binary is

A binary that was located is the published one or a file of the local checkout that is there
(`Located`).  The file name begins with the same letters for every build, so it is one
segment of a path unless a slash is in the key or in the version.  Then the last segment of
the path is the file name, and what stands in front of it is the build directory
(`name_builtPath`, `parent_builtPath`).
-/

namespace ModBuild

open ModBuild.Action

namespace Core

variable {core : Core} {path : String}

/-- A path that is not empty names a checkout. -/
theorem checkout?_eq_some (h : core.path = some path) (hne : path ≠ "") :
    core.checkout? = some path := by
  simp [checkout?, h, hne]

theorem checkout?_eq_none (h : core.path = none ∨ core.path = some "") :
    core.checkout? = none := by
  rcases h with h | h <;> simp [checkout?, h]

end Core

namespace Artifact

variable {settings : Settings} {workingDir : Option Path} {core : Core} {key version : String}
variable {artifact : Artifact} {w w' : World}

/-! ## What is located -/

/-- Where a binary is. -/
inductive Place where
  | path (p : Path)
  | url (text : String)
deriving DecidableEq

/-- The place of a binary. -/
def place : Artifact → Place
  | file path => .path path
  | published p => .url p.url

/-- A binary is the published one, or a file of the local checkout that is there. -/
def Located (settings : Settings) (workingDir : Option Path) (core : Core)
    (key version : String) (w : World) (artifact : Artifact) : Prop :=
  match core.checkout? with
  | none => artifact = .published (publication settings key version)
  | some path =>
    artifact = .file (builtPath (Version.baseOf workingDir w) path key version) ∧
      w.isFile (builtPath (Version.baseOf workingDir w) path key version) = true

theorem locate_located
    (h : (locate settings workingDir core key version).runIn w = (.ok artifact, w')) :
    Located settings workingDir core key version w' artifact := by
  rw [locate] at h
  rw [Located]
  cases hcheckout : core.checkout? with
  | none =>
    rw [hcheckout] at h
    cases h
    rfl
  | some path =>
    rw [hcheckout] at h
    dsimp only at h
    rw [runIn_bind_ok (runIn_get w)] at h
    split at h
    · next hfile =>
      cases h
      exact ⟨rfl, hfile⟩
    · cases h

theorem locate_preserves {I : World → Prop} (hlog : Preserves.IgnoresLog I) (settings : Settings)
    (workingDir : Option Path) (core : Core) (key version : String) :
    Preserves I (locate settings workingDir core key version) := by
  unfold locate
  split
  · exact .pure _
  · refine .get_bind fun w hw => ?_
    dsimp only
    split
    · exact hlog w _ hw
    · exact hw

/-- Only the files and the stage count. -/
theorem Located.congr (h : Located settings workingDir core key version w artifact)
    (hfiles : w'.files = w.files) (hstage : w'.stage = w.stage) :
    Located settings workingDir core key version w' artifact := by
  have hhere : w'.here = w.here := congrArg World.Stage.here hstage
  have hbase : Version.baseOf workingDir w' = Version.baseOf workingDir w := by
    rw [Version.baseOf, Version.baseOf, hhere]
  have hfile (p : Path) : w'.isFile p = w.isFile p := by
    rw [World.isFile, World.isFile, World.node?_congr hfiles hstage]
  rw [Located] at h ⊢
  cases hcheckout : core.checkout? with
  | none =>
    rw [hcheckout] at h
    exact h
  | some path =>
    rw [hcheckout] at h
    dsimp only at h ⊢
    rw [hbase, hfile]
    exact h

/-- What is located is so in the world that the run starts in. -/
theorem located_of_locate
    (h : (locate settings workingDir core key version).runIn w = (.ok artifact, w')) :
    Located settings workingDir core key version w artifact := by
  have hsame : w'.files = w.files ∧ w'.stage = w.stage := by
    have hkept := locate_preserves
      (Preserves.ignoresLog (P := fun files stage => files = w.files ∧ stage = w.stage))
      settings workingDir core key version w ⟨rfl, rfl⟩
    rwa [h] at hkept
  exact (locate_located h).congr hsame.1.symm hsame.2.symm

/-! ## The path of the file -/

/-- The file name without its suffix. -/
def bareName (key version : String) : String :=
  baseName ++ "-" ++ key ++ "-" ++ version

theorem fileName_eq (key version : String) :
    fileName key version = bareName key version ++ ".jar" :=
  rfl

/-- The first letter of every file name. -/
theorem toList_bareName (key version : String) :
    ∃ letters, (bareName key version).toList = 'U' :: letters := by
  simp [bareName, baseName]

theorem isSegment_fileName (hkey : '/' ∉ key.toList) (hversion : '/' ∉ version.toList) :
    Path.IsSegment (fileName key version) := by
  obtain ⟨letters, hletters⟩ := toList_bareName key version
  refine ⟨fun he => ?_, fun he => ?_, ?_⟩
  · simpa [fileName_eq, hletters] using congrArg String.toList he
  · simpa [fileName_eq, hletters] using congrArg String.toList he
  · simp [fileName, baseName, hkey, hversion]

section Segment

variable (base : Path) (checkout : String) (hsegment : Path.IsSegment (fileName key version))
include hsegment

theorem name_builtPath : (builtPath base checkout key version).name = fileName key version :=
  Path.name_div hsegment _

theorem parent_builtPath :
    (builtPath base checkout key version).parent = base / .ofString checkout / buildDirectory :=
  Path.parent_div hsegment _

/-- The suffix is cut off, whatever dots are in the key and in the version. -/
theorem stem_builtPath : (builtPath base checkout key version).stem = bareName key version := by
  obtain ⟨letters, hletters⟩ := toList_bareName key version
  have hname : (builtPath base checkout key version).name.toList =
      (bareName key version).toList ++ '.' :: ['j', 'a', 'r'] := by
    rw [name_builtPath base checkout hsegment, fileName_eq, String.toList_append]
    rfl
  rw [Path.stem_of_suffix (by simp [hletters]) (List.cons_ne_nil _ _) (by decide) hname,
    String.ofList_toList]

end Segment

theorem isNormal_buildDirectory {base : Path} (h : base.IsNormal) (checkout : String) :
    (base / .ofString checkout / buildDirectory : Path).IsNormal := by
  have hdirectory : buildDirectory.IsNormal := by decide
  exact (h.div (Path.isNormal_ofString checkout)).div hdirectory

theorem isNormal_builtPath {base : Path} (h : base.IsNormal) (checkout key version : String) :
    (builtPath base checkout key version).IsNormal :=
  (isNormal_buildDirectory h checkout).div (Path.isNormal_ofString _)

theorem publication_url (settings : Settings) (key version : String) :
    (publication settings key version).url = settings.mavenUrl ++
      "/cam72cam/universalmodcore/UniversalModCore/" ++ key ++ "-" ++ version ++
      "/UniversalModCore-" ++ key ++ "-" ++ version ++ ".jar" := by
  have hdirectory : "/cam72cam/universalmodcore/UniversalModCore/" =
      "/" ++ "/".intercalate groupParts ++ "/" ++ baseName ++ "/" := rfl
  have hfile : "/UniversalModCore-" = "/" ++ baseName ++ "-" := rfl
  rw [hdirectory, hfile]
  simp only [publication, fileName, String.append_assoc]

end Artifact

end ModBuild
