import ModBuild.Proofs.Cli.Stages

/-!
# Getting the binary

A run that fails leaves no part of the binary behind (`run_fetch_failed`).  A run that
succeeds has the binary at the destination, unless the destination is the file that the
binary comes from: this file is emptied (`run_fetch_done`).
-/

namespace ModBuild.Cli

open ModBuild.Action

section Failed

variable {request : Request} {environment : List (String × String)} {w w' : World}
variable {arguments : List String} {verbose : Bool} {destination : String}

/-- A run that ends with the status 1, or with a failure that is not reported, leaves no
part of the binary at the destination.  A file that could be opened takes all that is written to
it, so it is a read that fails while the binary is copied, and no tree holds links. -/
theorem run_fetch_failed
    (hparse : Invocation.parse arguments = .ok (some ⟨verbose, .fetch request destination⟩))
    (hw : w.Sound) (hremove : w.removeTempFault = none) {outcome : Except Failure Report}
    (hrun : (run arguments environment).runIn w = (outcome, w'))
    (hfailed : ∀ report, outcome = .ok report → report.status ≠ 0) :
    let p := Path.ofString destination
    (∀ report, outcome = .ok report → report.status = 1) ∧
      match (openBinary request environment).runIn w with
      | (.error _, _) => w'.files = w.files
      | (.ok _, w₁) =>
        match (openDestination p).runIn w₁ with
        | (.error _, _) =>
          (∀ q, w'.files.node? q = w.files.node? q ∨ w.IsNewOn p.parent w' q) ∧
            (".." ∉ p.segments → w'.node? p = w.node? p)
        | (.ok l, _) => w'.locate p = .ok l ∧ w'.files.node? l = none ∧
          ∀ q, q ≠ l → w'.files.node? q = w.files.node? q ∨ w.IsNewOn p.parent w' q := by
  intro p
  obtain ⟨hone, f, hget⟩ := getBinary_of_failed hparse hrun hfailed
  have hstages := getBinary_failed hw hremove hget
  refine ⟨hone, ?_⟩
  split
  · next hopen =>
    rw [hopen] at hstages
    exact hstages
  · next hopen =>
    rw [hopen] at hstages
    dsimp only at hstages
    split
    · next hdestination =>
      rw [hdestination] at hstages
      exact ⟨hstages.same_or_new, hstages.node?_straight hw.rooted⟩
    · next hdestination =>
      rw [hdestination] at hstages
      exact hstages

end Failed

/-- A world with a descriptor in the file "d", with some more files and with an answer of the
server. -/
def fetchWorld (core : String) (others : List (Location × Node)) (answer : Http.Answer) :
    World where
  files := ⟨(["d"], .file ("mod: \x7bpkg: p, cls: C, name: N, id: i, version: '1', " ++
    "dependencies: \x7b\x7d\x7d\numc: " ++ core).toUTF8.toList) :: others⟩
  here := []
  tempRoot := []
  makeTempFault := none
  removeTempFault := none
  gitRuns := []
  answer := answer
  closes := 0
  calls := []
  log := []

/-- A command line that gets the binary. -/
def fetchArguments (destination : String) : List String :=
  ["fetch-jar", "d", destination, "--minecraft", "1.12.2", "--loader", "forge"]

/-- What the command line asks for. -/
def fetchRequest : Request :=
  ⟨"d", "1.12.2", "forge", .shadow, none, none⟩

/-- A download that breaks off, to a file that is there. -/
def interrupted : World :=
  fetchWorld "\x7bversion: '1.2'\x7d" [(["old.jar"], .file [0x00])]
    (.response ⟨200, "OK", [.octets [0x50, 0x4B], .broken "connection reset"]⟩)

theorem run_fetch_failed_interrupted :
    ∃ report w', (run (fetchArguments "old.jar") []).runIn interrupted = (.ok report, w') ∧
      report.status = 1 ∧ w'.node? (.ofString "old.jar") = none := by
  have hparse : Invocation.parse (fetchArguments "old.jar") =
      .ok (some ⟨false, .fetch fetchRequest "old.jar"⟩) := rfl
  have hsound : interrupted.Sound :=
    ⟨⟨by decide +kernel, by decide +kernel, by decide +kernel⟩, rfl⟩
  have hgives : (run (fetchArguments "old.jar") []).gives interrupted
      (fun report _ => report.status == 1) = true := by
    decide +kernel
  have hopens : (openBinary fetchRequest []).gives interrupted
      (fun _ w => (openDestination (.ofString "old.jar")).gives w fun _ _ => true) = true := by
    decide +kernel
  obtain ⟨report, w', hrun, hone⟩ := gives_iff.1 hgives
  obtain ⟨s, w₁, hopen, hdestination⟩ := gives_iff.1 hopens
  obtain ⟨l, w₂, hdestination, -⟩ := gives_iff.1 hdestination
  have hone := beq_iff_eq.1 hone
  obtain ⟨-, h⟩ := run_fetch_failed hparse hsound rfl hrun (by rintro _ ⟨⟩; omega)
  rw [hopen] at h
  dsimp only at h
  rw [hdestination] at h
  obtain ⟨hlocate, hnone, -⟩ := h
  refine ⟨report, w', hrun, hone, ?_⟩
  rw [World.node?, hlocate]
  exact hnone

/-- A download to a path that passes through its own end. -/
def roundabout : World :=
  fetchWorld "\x7bversion: '1.2'\x7d" [] (.response ⟨200, "OK", [.octets [0x50, 0x4B]]⟩)

/-- A run can fail and leave a directory at the destination where nothing was. -/
theorem run_fetch_roundabout :
    ∃ report w', (run (fetchArguments "a/../a") []).runIn roundabout = (.ok report, w') ∧
      report.status = 1 ∧ roundabout.node? (.ofString "a/../a") = none ∧
      w'.node? (.ofString "a/../a") = some .directory := by
  have hgives : (run (fetchArguments "a/../a") []).gives roundabout (fun report w' =>
      report.status == 1 && w'.node? (.ofString "a/../a") == some .directory) = true := by
    decide +kernel
  obtain ⟨report, w', hrun, hcheck⟩ := gives_iff.1 hgives
  simp only [Bool.and_eq_true, beq_iff_eq] at hcheck
  exact ⟨report, w', hrun, hcheck.1, by decide +kernel, hcheck.2⟩

section Done

variable {request : Request} {environment : List (String × String)} {w w' : World}
variable {arguments : List String} {verbose : Bool} {destination : String}

/-- A run that ends with the status 0 has the binary at the destination, unless this is the
file that it comes from. -/
theorem run_fetch_done
    (hparse : Invocation.parse arguments = .ok (some ⟨verbose, .fetch request destination⟩))
    (hw : w.Sound) {report : Report} (hrun : (run arguments environment).runIn w = (.ok report, w'))
    (hdone : report.status = 0) :
    let p := Path.ofString destination
    ∃ resolution w₁, (request.resolve environment).runIn w = (.ok resolution, w₁) ∧
      match resolution.artifact with
      | .published _ => ∃ r, w.answer = .response r ∧
        (.octets [] ∉ r.body → (∀ piece ∈ r.body, ∃ bs, piece = .octets bs) ∧
          w'.node? p = some (.file (Http.bytes r.body)))
      | .file jar => ∃ octets, w.node? jar = some (.file octets) ∧
        (w'.node? p = some (.file octets) ∧ w'.node? jar = some (.file octets) ↔
          w'.locate p ≠ w.locate jar ∨ octets = []) := by
  intro p
  obtain ⟨version, hget⟩ := getBinary_of_done hparse hrun hdone
  obtain ⟨resolution, w₁, hresolution, s, l, octets, v, hplaced⟩ := getBinary_done hw hget
  refine ⟨resolution, w₁, hresolution, ?_⟩
  cases hartifact : resolution.artifact with
  | published publication =>
    rw [hartifact] at hplaced
    exact hplaced.of_published
  | file jar =>
    rw [hartifact] at hplaced
    exact hplaced.of_file

end Done

/-- A world with a checkout of the core library, which was built. -/
def checkout : World :=
  fetchWorld "\x7bversion: '1.2', path: u\x7d"
    [(["u"], .directory), (["u", "build"], .directory), (["u", "build", "libs"], .directory),
      (["u", "build", "libs", "UniversalModCore-1.12.2-forge-1.2.jar"], .file [0x50, 0x4B])]
    (.failed (.failed "there is no network"))

/-- Where the checkout has its binary, as the resolution has it. -/
def builtJar : Path :=
  ⟨.slash, ["u", "build", "libs", "UniversalModCore-1.12.2-forge-1.2.jar"]⟩

/-- Where the checkout has its binary, as a command line has it. -/
def builtName : String := "u/build/libs/UniversalModCore-1.12.2-forge-1.2.jar"

/-- The resolution has the binary of the checkout. -/
theorem resolve_checkout :
    ∃ resolution w₁, (fetchRequest.resolve []).runIn checkout = (.ok resolution, w₁) ∧
      resolution.artifact = .file builtJar := by
  have hgives : (fetchRequest.resolve []).gives checkout
      (fun resolution _ => resolution.artifact == .file builtJar) = true := by
    decide +kernel
  obtain ⟨resolution, w₁, hresolution, hartifact⟩ := gives_iff.1 hgives
  exact ⟨resolution, w₁, hresolution, beq_iff_eq.1 hartifact⟩

theorem run_fetch_done_checkout :
    ∃ report w', (run (fetchArguments "o/core.jar") []).runIn checkout = (.ok report, w') ∧
      report.status = 0 ∧ w'.node? (.ofString "o/core.jar") = some (.file [0x50, 0x4B]) ∧
      w'.node? builtJar = some (.file [0x50, 0x4B]) := by
  have hparse : Invocation.parse (fetchArguments "o/core.jar") =
      .ok (some ⟨false, .fetch fetchRequest "o/core.jar"⟩) := rfl
  have hsound : checkout.Sound :=
    ⟨⟨by decide +kernel, by decide +kernel, by decide +kernel⟩, rfl⟩
  have hgives : (run (fetchArguments "o/core.jar") []).gives checkout (fun report w' =>
      report.status == 0 &&
        (w'.locate (.ofString "o/core.jar")).toOption == some ["o", "core.jar"]) = true := by
    decide +kernel
  obtain ⟨report, w', hrun, hcheck⟩ := gives_iff.1 hgives
  simp only [Bool.and_eq_true, beq_iff_eq] at hcheck
  obtain ⟨hzero, hlocate⟩ := hcheck
  obtain ⟨resolution, w₁, hresolution, hartifact⟩ := resolve_checkout
  obtain ⟨resolution', w₁', hresolution', h⟩ := run_fetch_done hparse hsound hrun hzero
  rw [hresolution] at hresolution'
  cases hresolution'
  rw [hartifact] at h
  obtain ⟨octets, hjar, hiff⟩ := h
  have hoctets : checkout.node? builtJar = some (.file [0x50, 0x4B]) := rfl
  rw [hjar] at hoctets
  cases hoctets
  have hother : w'.locate (.ofString "o/core.jar") ≠ checkout.locate builtJar := by
    intro he
    rw [he] at hlocate
    exact absurd hlocate (by decide)
  exact ⟨report, w', hrun, hzero, hiff.2 (Or.inl hother)⟩

/-- A run can succeed and empty the file that the binary comes from. -/
theorem run_fetch_built :
    ∃ resolution w₁ report w',
      (fetchRequest.resolve []).runIn checkout = (.ok resolution, w₁) ∧
      resolution.artifact = .file builtJar ∧
      (run (fetchArguments builtName) []).runIn checkout = (.ok report, w') ∧ report.status = 0 ∧
      checkout.node? builtJar = some (.file [0x50, 0x4B]) ∧
      w'.node? (.ofString builtName) = some (.file []) ∧ w'.node? builtJar = some (.file []) := by
  have hgives : (run (fetchArguments builtName) []).gives checkout (fun report w' =>
      report.status == 0 && (w'.node? (.ofString builtName) == some (.file []) &&
        w'.node? builtJar == some (.file []))) = true := by
    decide +kernel
  obtain ⟨report, w', hrun, hcheck⟩ := gives_iff.1 hgives
  simp only [Bool.and_eq_true, beq_iff_eq] at hcheck
  obtain ⟨hzero, hname, hjar⟩ := hcheck
  obtain ⟨resolution, w₁, hresolution, hartifact⟩ := resolve_checkout
  exact ⟨resolution, w₁, report, w', hresolution, hartifact, hrun, hzero, rfl, hname, hjar⟩

end ModBuild.Cli
