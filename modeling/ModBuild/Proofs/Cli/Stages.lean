import ModBuild.Cli.Run
import ModBuild.Proofs.Cli.Copy
import ModBuild.Proofs.Files.Resolved
import ModBuild.Proofs.Resolution

/-!
# The stages of getting the binary

The binary is opened, then the destination is opened, and last the one is copied to the
other.  A run that fails has come to one of these stages, and what it leaves is told by
the stage (`getBinary_failed`).  A run that does not fail has come through all of them
and has placed the binary (`getBinary_done`).  The status of the command tells which it
was (`run_fetch`).
-/

namespace ModBuild.Cli

open ModBuild.Action

variable {request : Request} {environment : List (String × String)} {p : Path} {w w' : World}

/-! ## The stages of a run -/

/-- Find the binary and open it. -/
def openBinary (r : Request) (environment : List (String × String)) : Action Stream := do
  let resolution ← r.resolve environment
  resolution.openArtifact

/-- Make the directories that a destination lies in and open it. -/
def openDestination (p : Path) : Action Location := do
  ensureDirectories p.parent
  writeFile p []

/-- Open the destination and copy a stream to it. -/
def place (s : Stream) (p : Path) : Action Unit := do
  ensureDirectories p.parent
  writeStream s p

/-- Get the binary and tell its version. -/
def getBinary (r : Request) (p : Path) (environment : List (String × String)) :
    Action String := do
  let resolution ← r.resolve environment
  fetchArtifact resolution p
  return resolution.version

/-- What is said of an attempt to get the binary. -/
def reportOf (destination : Path) : Except Failure String → Action Report
  | .ok version =>
    return .done ("Wrote core library " ++ version ++ " to '" ++ destination.toString ++ "'.")
  | .error (.os cause) =>
    return .failed ("cannot copy core library to '" ++ destination.toString ++ "': " ++
      cause.message)
  | .error f => reportFailure f

theorem fetchBinary_eq (r : Request) (destination : String)
    (environment : List (String × String)) :
    fetchBinary r destination environment =
      attempt (getBinary r (.ofString destination) environment) >>=
        reportOf (.ofString destination) := by
  refine congrArg (attempt (getBinary r (.ofString destination) environment) >>= ·) ?_
  funext outcome
  cases outcome with
  | ok version => rfl
  | error f => cases f <;> rfl

theorem reportOf_error (destination : Path) (f : Failure) (w : World) :
    (∃ report, (reportOf destination (.error f)).runIn w = (.ok report, w) ∧ report.status = 1) ∨
      ∃ f', (reportOf destination (.error f)).runIn w = (.error f', w) := by
  have hother : (∃ report, (reportFailure f).runIn w = (.ok report, w) ∧ report.status = 1) ∨
      ∃ f', (reportFailure f).runIn w = (.error f', w) := by
    rw [reportFailure]
    split
    · exact Or.inl ⟨_, rfl, rfl⟩
    · exact Or.inr ⟨_, rfl⟩
  cases f with
  | os cause => exact Or.inl ⟨_, rfl, rfl⟩
  | _ => exact hother

/-- What comes of placing a stream: the destination is not opened, or the copy fails, or it
comes to an end. -/
theorem place_cases (hw : w.Rooted) (s : Stream) (p : Path) :
    (∃ f w', (place s p).runIn w = (.error f, w') ∧ w.Paved p.parent w' ∧
      ∃ f v, (openDestination p).runIn w = (.error f, v)) ∨
    ∃ v l, w.Paved p.parent v ∧ v.locate p = .ok l ∧ v.files.node? l ≠ some .directory ∧
      (∃ v', (openDestination p).runIn w = (.ok l, v')) ∧
      ((∃ f w', (place s p).runIn w = (.error f, w') ∧ v.files.OnlyAt l none w'.files ∧
          w'.stage = v.stage) ∨
        ∃ octets w', (place s p).runIn w = (.ok (), w') ∧
          WritesAt v.files v.stage l octets w' ∧
          (s.Gapless → octets = s.octets (v.files.set l (.file [])) ∧ s.Unbroken)) := by
  have hpaved := ensureDirectories_paved p.parent w
  have hrooted := ensureDirectories_rooted p.parent w hw
  unfold place openDestination
  generalize hrun : (ensureDirectories p.parent).runIn w = result at hpaved hrooted
  obtain ⟨outcome, v⟩ := result
  cases outcome with
  | error f => exact Or.inl ⟨f, v, runIn_bind_error hrun, hpaved, f, v, runIn_bind_error hrun⟩
  | ok _ =>
    rw [runIn_bind_ok hrun, runIn_bind_ok hrun]
    rcases writeStream_cases hrooted s p with ⟨f, hopen, hwrite⟩ | ⟨l, v', hl, hn, hopen, hwrite⟩
    · exact Or.inl ⟨f, v, hwrite, hpaved, f, v, hopen⟩
    · exact Or.inr ⟨v, l, hpaved, hl, hn, ⟨v', hopen⟩, hwrite⟩

theorem runIn_fetchArtifact {resolution : Resolution} {s : Stream} {v : World} (p : Path)
    (hopen : resolution.openArtifact.runIn w = (.ok s, v)) :
    ∃ closes, (fetchArtifact resolution p).runIn w =
      (((place s p).runIn v).1, { ((place s p).runIn v).2 with closes }) := by
  obtain ⟨closes, s', hclose⟩ := s.close_cases ((place s p).runIn v).2
  refine ⟨closes, ?_⟩
  rw [fetchArtifact, runIn_bind_ok hopen, runIn_bind_ok (runIn_attempt _ v)]
  exact (runIn_bind_ok hclose).trans (runIn_ofExcept _ _)

theorem openBinary_tidy (r : Request) (environment : List (String × String)) :
    Tidy (openBinary r environment) :=
  (r.resolve_tidy environment).bind fun resolution =>
    .of_preserves fun _ => resolution.artifact.openStream_preserves _

theorem openBinary_ok (hw : w.Sound) {s : Stream} {v : World}
    (h : (openBinary request environment).runIn w = (.ok s, v)) :
    ∃ resolution w₁, (request.resolve environment).runIn w = (.ok resolution, w₁) ∧
      resolution.artifact.Opens w s := by
  obtain ⟨resolution, w₁, hresolution, hopen⟩ := of_runIn_bind_ok h
  obtain ⟨hfiles, hstage⟩ := (request.resolve_tidy environment).of_ok hw.files hresolution
  exact ⟨resolution, w₁, hresolution, (Artifact.openStream_ok hopen).congr hfiles hstage⟩

/-- A binary that cannot be opened ends the run. -/
theorem runIn_getBinary_of_error {f : Failure} {v : World} (p : Path)
    (h : (openBinary request environment).runIn w = (.error f, v)) :
    (getBinary request p environment).runIn w = (.error f, v) := by
  rw [openBinary, runIn_bind] at h
  rw [getBinary, runIn_bind]
  generalize (request.resolve environment).runIn w = result at h ⊢
  obtain ⟨f' | resolution, w₁⟩ := result
  · cases h
    rfl
  · exact runIn_bind_error (runIn_bind_error h)

/-- A binary that was opened is placed. -/
theorem runIn_getBinary_of_ok {s : Stream} {v : World} (p : Path)
    (h : (openBinary request environment).runIn w = (.ok s, v)) :
    ∃ version closes, (getBinary request p environment).runIn w =
      (((place s p).runIn v).1.map fun _ => version, { ((place s p).runIn v).2 with closes }) := by
  obtain ⟨resolution, w₁, hresolution, hopen⟩ := of_runIn_bind_ok h
  obtain ⟨closes, hfetch⟩ := runIn_fetchArtifact p hopen
  refine ⟨resolution.version, closes, ?_⟩
  rw [getBinary, runIn_bind_ok hresolution, runIn_bind, hfetch]
  cases ((place s p).runIn v).1 <;> rfl

/-- A run that does not get the binary leaves everything as it was until the destination is
opened, but for directories that the destination lies in.  Afterwards it leaves nothing at
the destination. -/
theorem getBinary_failed (hw : w.Sound) (hremove : w.removeTempFault = none) {f : Failure}
    (h : (getBinary request p environment).runIn w = (.error f, w')) :
    match (openBinary request environment).runIn w with
    | (.error _, _) => w'.files = w.files
    | (.ok _, w₁) =>
      match (openDestination p).runIn w₁ with
      | (.error _, _) => w.Paved p.parent w'
      | (.ok l, _) => w'.locate p = .ok l ∧ w'.files.node? l = none ∧
        ∀ q, q ≠ l → w'.files.node? q = w.files.node? q ∨ w.IsNewOn p.parent w' q := by
  rcases hopen : (openBinary request environment).runIn w with ⟨f' | s, w₁⟩
  · rw [runIn_getBinary_of_error p hopen] at h
    cases h
    exact ((openBinary_tidy request environment).of_removable hw.files hremove hopen).1
  · -- Opening the binary has changed neither the files nor the stage.
    obtain ⟨hfiles, hstage⟩ := (openBinary_tidy request environment).of_ok hw.files hopen
    obtain ⟨version, closes, hget⟩ := runIn_getBinary_of_ok p hopen
    rw [hget] at h
    dsimp only
    rcases place_cases (hw.rooted.congr hfiles hstage) s p with
      ⟨f₂, w₂, hplace, hpaved, f', v, hdestination⟩ |
      ⟨v, l, hpaved, hl, hn, ⟨v', hdestination⟩, hcopy⟩
    · rw [hplace] at h
      cases h
      rw [hdestination]
      have hpaved := hpaved.congr hfiles hstage
      exact ⟨hpaved.stage, hpaved.same_or_new⟩
    · rw [hdestination]
      rcases hcopy with ⟨f₂, w₂, hplace, hgone, hstage₂⟩ | ⟨octets, w₂, hplace, -⟩
      · rw [hplace] at h
        cases h
        refine ⟨World.locate_mono hstage₂ (fun _ => hgone.directory hn) hl, hgone.node?_self, ?_⟩
        exact fun q hq => (hpaved.congr hfiles hstage).onlyAt hn hgone hstage₂ hq
      · rw [hplace] at h
        cases h

/-- How a binary comes to its destination.  When the destination is opened, directories
that it lies in may have been made.  The stream is read after it was opened. -/
structure Placed (artifact : Artifact) (p : Path) (s : Stream) (l : Location)
    (octets : List UInt8) (w v w' : World) : Prop where
  opens : artifact.Opens w s
  paved : w.Paved p.parent v
  located : v.locate p = .ok l
  notDirectory : v.files.node? l ≠ some .directory
  written : WritesAt v.files v.stage l octets w'
  read : s.Gapless → octets = s.octets (v.files.set l (.file [])) ∧ s.Unbroken

/-- A run that gets the binary has placed it, and has changed nothing else but for
directories that the destination lies in. -/
theorem getBinary_done (hw : w.Sound) {version : String}
    (h : (getBinary request p environment).runIn w = (.ok version, w')) :
    ∃ resolution w₁, (request.resolve environment).runIn w = (.ok resolution, w₁) ∧
      ∃ s l octets v, Placed resolution.artifact p s l octets w v w' := by
  rcases hopen : (openBinary request environment).runIn w with ⟨f | s, w₁⟩
  · rw [runIn_getBinary_of_error p hopen] at h
    cases h
  · obtain ⟨hfiles, hstage⟩ := (openBinary_tidy request environment).of_ok hw.files hopen
    obtain ⟨resolution, w₀, hresolution, hopens⟩ := openBinary_ok hw hopen
    obtain ⟨version', closes, hget⟩ := runIn_getBinary_of_ok p hopen
    rw [hget] at h
    rcases place_cases (hw.rooted.congr hfiles hstage) s p with
      ⟨f₂, w₂, hplace, -⟩ |
      ⟨v, l, hpaved, hl, hn, -, ⟨f₂, w₂, hplace, -⟩ | ⟨octets, w₂, hplace, hwrites, hoctets⟩⟩
    · rw [hplace] at h
      cases h
    · rw [hplace] at h
      cases h
    · rw [hplace] at h
      cases h
      exact ⟨resolution, w₀, hresolution, s, l, octets, v, hopens, hpaved.congr hfiles hstage, hl,
        hn, hwrites, hoctets⟩

namespace Placed

variable {artifact : Artifact} {publication : Publication} {jar : Path} {s : Stream} {l : Location}
variable {octets : List UInt8} {v : World}

theorem directory (h : Placed artifact p s l octets w v w') {q : Location}
    (hq : v.files.node? q = some .directory) : w'.files.node? q = some .directory :=
  h.written.1.directory h.notDirectory hq

theorem locate (h : Placed artifact p s l octets w v w') : w'.locate p = .ok l :=
  World.locate_mono h.written.2 (fun _ => h.directory) h.located

theorem node?_destination (h : Placed artifact p s l octets w v w') :
    w'.node? p = some (.file octets) := by
  rw [World.node?, h.locate]
  exact h.written.1.node?_self

/-- A download is placed as a whole. -/
theorem of_published (h : Placed (.published publication) p s l octets w v w') :
    ∃ r, w.answer = .response r ∧
      (.octets [] ∉ r.body → (∀ piece ∈ r.body, ∃ bs, piece = .octets bs) ∧
        w'.node? p = some (.file (Http.bytes r.body))) := by
  obtain ⟨r, hanswer, rfl⟩ := h.opens
  refine ⟨r, hanswer, fun hgapless => ?_⟩
  obtain ⟨rfl, hunbroken⟩ := h.read (by rintro _ ⟨⟩; exact hgapless)
  exact ⟨hunbroken _ rfl, h.node?_destination⟩

/-- A file is placed as a whole, unless it is the destination itself: it was emptied when
this was opened. -/
theorem of_file (h : Placed (.file jar) p s l octets w v w') :
    ∃ o, w.node? jar = some (.file o) ∧
      (w'.node? p = some (.file o) ∧ w'.node? jar = some (.file o) ↔
        w'.locate p ≠ w.locate jar ∨ o = []) := by
  obtain ⟨source, o, hsource, ho, rfl⟩ := h.opens
  have hjar : w.node? jar = some (.file o) := by
    rw [World.node?, hsource]
    exact ho
  have hsource' : w'.locate jar = .ok source :=
    World.locate_mono h.written.2 (fun _ => h.directory)
      (World.locate_mono h.paved.stage (fun _ => h.paved.node?_eq) hsource)
  have hjar' : w'.node? jar = w'.files.node? source := by rw [World.node?, hsource']
  obtain ⟨hread, -⟩ := h.read (.of_file rfl)
  obtain ⟨hown, hapart⟩ := octets_emptied ⟨.file source 0, true⟩ v.files
    (FileTree.ne_nil_of_node? h.notDirectory)
  refine ⟨o, hjar, ?_⟩
  rw [h.node?_destination, hjar', h.locate, hsource]
  by_cases hsame : l = source
  · subst hsame
    rw [h.written.1.node?_self, hread, hown ⟨0, rfl⟩]
    simp [eq_comm]
  · have hstill : w'.files.node? source = some (.file o) :=
      (h.written.1.node?_of_ne (Ne.symm hsame)).trans (h.paved.node?_eq ho)
    have hother : ¬ Stream.ReadsFrom ⟨.file source 0, true⟩ l := by
      rintro ⟨position, he⟩
      cases he
      exact hsame rfl
    have hoctets : octets = o := by
      rw [hread, hapart hother, Stream.octets]
      dsimp only
      rw [Stream.octetsAt, h.paved.node?_eq ho]
      rfl
    rw [hoctets, hstill]
    simp [hsame]

end Placed

/-! ## The command -/

section Command

variable {arguments : List String} {verbose : Bool} {destination : String}

/-- The status tells whether the binary was got. -/
theorem run_fetch
    (hparse : Invocation.parse arguments = .ok (some ⟨verbose, .fetch request destination⟩))
    (environment : List (String × String)) (w : World) :
    match (getBinary request (.ofString destination) environment).runIn w with
    | (.ok _, w') => ∃ report, (run arguments environment).runIn w = (.ok report, w') ∧
        report.status = 0
    | (.error _, w') =>
      (∃ report, (run arguments environment).runIn w = (.ok report, w') ∧ report.status = 1) ∨
        ∃ f, (run arguments environment).runIn w = (.error f, w') := by
  rw [run, hparse]
  dsimp only [Command.run]
  rw [runIn_bind, fetchBinary_eq, runIn_bind_ok (runIn_attempt _ w)]
  generalize (getBinary request (.ofString destination) environment).runIn w = result
  obtain ⟨f | version, w'⟩ := result
  · obtain ⟨report, hreport, hone⟩ | ⟨f', hf'⟩ := reportOf_error (.ofString destination) f w'
    · dsimp only
      rw [hreport]
      exact Or.inl ⟨_, rfl, hone⟩
    · dsimp only
      rw [hf']
      exact Or.inr ⟨_, rfl⟩
  · exact ⟨_, rfl, rfl⟩

theorem getBinary_of_done
    (hparse : Invocation.parse arguments = .ok (some ⟨verbose, .fetch request destination⟩))
    {report : Report} (hrun : (run arguments environment).runIn w = (.ok report, w'))
    (hdone : report.status = 0) :
    ∃ version, (getBinary request (.ofString destination) environment).runIn w =
      (.ok version, w') := by
  have hreport := run_fetch hparse environment w
  rw [hrun] at hreport
  rcases hget : (getBinary request (.ofString destination) environment).runIn w with
    ⟨f | version, v⟩
  · rw [hget] at hreport
    rcases hreport with ⟨_, ⟨⟩, hone⟩ | ⟨_, ⟨⟩⟩
    omega
  · rw [hget] at hreport
    obtain ⟨_, ⟨⟩, -⟩ := hreport
    exact ⟨version, rfl⟩

theorem getBinary_of_failed
    (hparse : Invocation.parse arguments = .ok (some ⟨verbose, .fetch request destination⟩))
    {outcome : Except Failure Report}
    (hrun : (run arguments environment).runIn w = (outcome, w'))
    (hfailed : ∀ report, outcome = .ok report → report.status ≠ 0) :
    (∀ report, outcome = .ok report → report.status = 1) ∧
      ∃ f, (getBinary request (.ofString destination) environment).runIn w = (.error f, w') := by
  have hreport := run_fetch hparse environment w
  rw [hrun] at hreport
  rcases hget : (getBinary request (.ofString destination) environment).runIn w with
    ⟨f | version, v⟩
  · rw [hget] at hreport
    rcases hreport with ⟨report, ⟨⟩, hone⟩ | ⟨_, ⟨⟩⟩
    · refine ⟨?_, f, rfl⟩
      rintro _ ⟨⟩
      exact hone
    · exact ⟨by rintro _ ⟨⟩, f, rfl⟩
  · rw [hget] at hreport
    obtain ⟨report, ⟨⟩, hzero⟩ := hreport
    exact absurd hzero (hfailed report rfl)

end Command

end ModBuild.Cli
