import ModBuild.Proofs.Artifact.Locate

/-!
# The lines of a build script

A build script takes the binary by two lines: where to look, and what to take.  `designated?`
reads the two as a build tool does.  A directory of files has the file with the name and the
suffix `.jar`.  A Maven repository has the publication at the URL that its layout gives to the
coordinate (`mavenUrl`).

The lines are written from other parts of a binary than its place: the directory is the parent of
its path, the name is the stem, and the coordinate is made apart from the URL.  Still they lead
back to the place (`lines_designate`).
-/

namespace ModBuild

open Text

namespace Artifact

/-! ## Reading the lines -/

/-- What stands between two texts. -/
def between? (front back line : String) : Option String := do
  let rest ← line.toList.dropPrefix? front.toList
  let inner ← rest.dropSuffix? back.toList
  return .ofList inner

/-- The URL of a publication in the layout of a Maven repository.  The group has a directory for
each of its parts, and so have the name and the version. -/
def mavenUrl (repositoryUrl group name version : String) : String :=
  "/".intercalate [repositoryUrl, .ofList (group.toList.map fun c => if c = '.' then '/' else c),
    name, version, name ++ "-" ++ version ++ ".jar"]

/-- The place of the binary that the two lines of a build script take. -/
def designated? (repositoryLine dependencyLine : String) : Option Place :=
  match between? "flatDir \x7b dirs '" "' \x7d" repositoryLine with
  | some directory => do
    let name ← between? "name: '" "'" dependencyLine
    return .path (.ofString directory / .ofString (name ++ ".jar"))
  | none => do
    let repositoryUrl ← between? "maven \x7b url = \"" "\" \x7d" repositoryLine
    let coordinate ← between? "'" "'" dependencyLine
    match (fields ':' coordinate.toList).map String.ofList with
    | [group, name, version] => return .url (mavenUrl repositoryUrl group name version)
    | _ => none

theorem between?_append (front inner back : String) :
    between? front back (front ++ inner ++ back) = some inner := by
  rw [between?, String.toList_append, String.toList_append, List.append_assoc, dropPrefix?_append,
    Option.bind_eq_bind, Option.bind_some, dropSuffix?_append]
  simp

/-- A line about a Maven repository is not about a directory. -/
theorem between?_flatDir_maven (repositoryUrl : String) :
    between? "flatDir \x7b dirs '" "' \x7d" ("maven \x7b url = \"" ++ repositoryUrl ++ "\" \x7d") =
      none := by
  simp [between?, List.dropPrefix?]

/-! ## The lines -/

section Lines

variable (path : Path) (p : Publication)

theorem repositoryLine_file :
    (file path).repositoryLine = "flatDir \x7b dirs '" ++ path.parent.toString ++ "' \x7d" :=
  rfl

theorem dependencyLine_file : (file path).dependencyLine = "name: '" ++ path.stem ++ "'" :=
  rfl

theorem repositoryLine_published :
    (published p).repositoryLine = "maven \x7b url = \"" ++ p.repositoryUrl ++ "\" \x7d" :=
  rfl

theorem dependencyLine_published : (published p).dependencyLine = "'" ++ p.coordinate ++ "'" :=
  rfl

end Lines

/-! ## A file -/

theorem designated?_file {path : Path}
    (hpath : Path.ofString path.parent.toString / .ofString (path.stem ++ ".jar") = path) :
    designated? (file path).repositoryLine (file path).dependencyLine = some (.path path) := by
  rw [repositoryLine_file, dependencyLine_file, designated?, between?_append, between?_append]
  dsimp only [Option.bind_eq_bind, Option.bind_some]
  rw [hpath]
  rfl

/-! ## A publication -/

/-- A text that no slash and no colon is in. -/
structure Unmarked (text : String) : Prop where
  slash : '/' ∉ text.toList
  colon : ':' ∉ text.toList

theorem fields_coordinate (settings : Settings) {key version : String} (hkey : ':' ∉ key.toList)
    (hversion : ':' ∉ version.toList) :
    (fields ':' (publication settings key version).coordinate.toList).map String.ofList =
      ["cam72cam.universalmodcore", baseName, key ++ "-" ++ version] := by
  have hgroup : ".".intercalate groupParts = "cam72cam.universalmodcore" := rfl
  have hparts : (publication settings key version).coordinate.toList =
      List.intercalate [':'] (["cam72cam.universalmodcore", baseName, key ++ "-" ++ version].map
        String.toList) := by
    simp [publication, hgroup]
  rw [hparts, fields_intercalate _ (by simp), List.map_map]
  · simp
  · simp [baseName, hkey, hversion]

/-- The URL of a publication is the one that the layout gives to its coordinate. -/
theorem url_eq_mavenUrl (settings : Settings) (key version : String) :
    (publication settings key version).url =
      mavenUrl settings.mavenUrl "cam72cam.universalmodcore" baseName (key ++ "-" ++ version) := by
  have hgroup : String.ofList ("cam72cam.universalmodcore".toList.map fun c =>
      if c = '.' then '/' else c) = "/".intercalate groupParts := by decide +kernel
  have hfile : fileName key version = baseName ++ "-" ++ (key ++ "-" ++ version) ++ ".jar" := by
    simp only [fileName, String.append_assoc]
  rw [mavenUrl, hgroup, publication, hfile]
  rfl

theorem designated?_published (settings : Settings) {key version : String}
    (hkey : ':' ∉ key.toList) (hversion : ':' ∉ version.toList) :
    designated? (repositoryLine (.published (publication settings key version)))
        (dependencyLine (.published (publication settings key version))) =
      some (.url (publication settings key version).url) := by
  rw [repositoryLine_published, dependencyLine_published, designated?, between?_flatDir_maven,
    between?_append, between?_append]
  dsimp only [Option.bind_eq_bind, Option.bind_some]
  rw [fields_coordinate settings hkey hversion, url_eq_mavenUrl]
  rfl

/-! ## The lines of a binary that was located -/

/-- The directory and the stem with the suffix make up the path. -/
theorem parent_div_stem {base : Path} (hbase : base.IsNormal) (checkout : String)
    {key version : String} (hsegment : Path.IsSegment (fileName key version)) :
    let path := builtPath base checkout key version
    Path.ofString path.parent.toString / .ofString (path.stem ++ ".jar") = path := by
  dsimp only
  rw [parent_builtPath base checkout hsegment, stem_builtPath base checkout hsegment,
    (isNormal_buildDirectory hbase checkout).ofString_toString]
  rfl

/-- The lines for a binary that was located take the binary itself: read by a build tool, they
lead to its place.  For a publication the coordinate has three parts, and the URL is the one that
the layout of the repository gives to them.  For a file the directory and the name with the
suffix make up the path, and a regular file is there. -/
theorem lines_designate {settings : Settings} {workingDir : Option Path} {core : Core}
    {key version : String} {w w' : World} {artifact : Artifact}
    (hbase : (Version.baseOf workingDir w).IsNormal) (hkey : Unmarked key)
    (hversion : Unmarked version)
    (h : (locate settings workingDir core key version).runIn w = (.ok artifact, w')) :
    designated? artifact.repositoryLine artifact.dependencyLine = some artifact.place ∧
      match artifact with
      | .published p =>
        (published p).repositoryLine = "maven \x7b url = \"" ++ p.repositoryUrl ++ "\" \x7d" ∧
        (published p).dependencyLine = "'" ++ p.coordinate ++ "'" ∧
        ∃ group name full,
          (fields ':' p.coordinate.toList).map String.ofList = [group, name, full] ∧
          p.url = mavenUrl p.repositoryUrl group name full
      | .file path => ∃ directory name octets,
        (file path).repositoryLine = "flatDir \x7b dirs '" ++ directory ++ "' \x7d" ∧
        (file path).dependencyLine = "name: '" ++ name ++ "'" ∧
        Path.ofString directory / .ofString (name ++ ".jar") = path ∧
        w.node? path = some (.file octets) := by
  have hlocated := located_of_locate h
  rw [Located] at hlocated
  cases hcheckout : core.checkout? with
  | none =>
    rw [hcheckout] at hlocated
    cases hlocated
    exact ⟨designated?_published settings hkey.colon hversion.colon,
      repositoryLine_published _, dependencyLine_published _, _, _, _,
      fields_coordinate settings hkey.colon hversion.colon, url_eq_mavenUrl settings key version⟩
  | some checkout =>
    rw [hcheckout] at hlocated
    obtain ⟨rfl, hfile⟩ := hlocated
    have hpath := parent_div_stem hbase checkout
      (isSegment_fileName hkey.slash hversion.slash)
    obtain ⟨octets, hoctets⟩ := World.isFile_iff.1 hfile
    exact ⟨designated?_file hpath, _, _, octets, repositoryLine_file _, dependencyLine_file _,
      hpath, hoctets⟩

/-- A world with a built checkout beside the working directory. -/
def builtBeside : World where
  __ := World.offline ⟨[
    (["mod"], .directory),
    (["core"], .directory),
    (["core", "build"], .directory),
    (["core", "build", "libs"], .directory),
    (["core", "build", "libs", "UniversalModCore-1.20.1-forge-2.5..rc.1.-abc.jar"], .file [0x50])]⟩
  here := ["mod"]

theorem lines_designate_dots :
    (Version.baseOf none builtBeside).IsNormal ∧ Unmarked "1.20.1-forge" ∧
      Unmarked "2.5..rc.1.-abc" ∧
      ∃ artifact w', (locate {} none ⟨"latest", some "../core/"⟩ "1.20.1-forge"
          "2.5..rc.1.-abc").runIn builtBeside = (.ok artifact, w') ∧
        artifact.repositoryLine = "flatDir \x7b dirs '/mod/../core/build/libs' \x7d" ∧
        artifact.dependencyLine = "name: 'UniversalModCore-1.20.1-forge-2.5..rc.1.-abc'" ∧
        designated? artifact.repositoryLine artifact.dependencyLine = some artifact.place := by
  have hbase : (Version.baseOf none builtBeside).IsNormal := by decide +kernel
  have hkey : Unmarked "1.20.1-forge" := ⟨by decide +kernel, by decide +kernel⟩
  have hversion : Unmarked "2.5..rc.1.-abc" := ⟨by decide +kernel, by decide +kernel⟩
  have hgives : (locate {} none ⟨"latest", some "../core/"⟩ "1.20.1-forge"
      "2.5..rc.1.-abc").gives builtBeside (fun a _ =>
        a.repositoryLine == "flatDir \x7b dirs '/mod/../core/build/libs' \x7d" &&
        a.dependencyLine == "name: 'UniversalModCore-1.20.1-forge-2.5..rc.1.-abc'") = true := by
    decide +kernel
  obtain ⟨artifact, w', hrun, hlines⟩ := Action.gives_iff.1 hgives
  simp only [Bool.and_eq_true, beq_iff_eq] at hlines
  obtain ⟨hrepository, hdependency⟩ := hlines
  exact ⟨hbase, hkey, hversion, artifact, w', hrun, hrepository, hdependency,
    (lines_designate hbase hkey hversion hrun).1⟩

end Artifact

end ModBuild
