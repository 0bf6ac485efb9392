import ModBuild.Proofs.Cli.Fetch
import ModBuild.Proofs.Cli.Run

/-!
# Refused downloads

A response with a status from 400 to 599 is refused: it is closed, the binary is not opened, and
a run that was to get it ends with the status 1 and changes no file.  A response with any other
status is taken for the binary, whether its status is one of success or not
(`run_fetch_answered`).
-/

namespace ModBuild

open ModBuild.Action

/-! ## What is refused -/

/-- The statuses that show an error of the client or of the server. -/
def Http.Response.IsError (r : Http.Response) : Prop :=
  400 ≤ r.status ∧ r.status < 600

instance (r : Http.Response) : Decidable r.IsError :=
  inferInstanceAs (Decidable (_ ∧ _))

/-- The statuses that show a success. -/
def Http.Response.IsSuccess (r : Http.Response) : Prop :=
  200 ≤ r.status ∧ r.status < 300

instance (r : Http.Response) : Decidable r.IsSuccess :=
  inferInstanceAs (Decidable (_ ∧ _))

theorem Http.Response.isSome_refusal?_iff (r : Http.Response) (url : String) :
    (r.refusal? url).isSome ↔ r.IsError := by
  unfold refusal? IsError
  by_cases hclient : 400 ≤ r.status ∧ r.status < 500
  · rw [if_pos hclient]
    exact iff_of_true rfl (by omega)
  · by_cases hserver : 500 ≤ r.status ∧ r.status < 600
    · rw [if_neg hclient, if_pos hserver]
      exact iff_of_true rfl (by omega)
    · rw [if_neg hclient, if_neg hserver]
      exact iff_of_false nofun (by omega)

namespace Artifact

variable {p : Publication} {seconds : Int} {w : World} {r : Http.Response}

/-- A publication is not opened for a reason of the network, and the response is closed. -/
def Refused (p : Publication) (seconds : Int) (w : World) : Prop :=
  ∃ f, f.kind = .network ∧ ((published p).openStream seconds).runIn w =
    (.error f, { w.requested p.url seconds with closes := w.closes + 1 })

/-- A publication is opened at the start of the body of a response. -/
def Accepted (p : Publication) (seconds : Int) (w : World) (r : Http.Response) : Prop :=
  ((published p).openStream seconds).runIn w =
    (.ok ⟨.download ⟨p.url, r.body, []⟩, true⟩, w.requested p.url seconds)

theorem Accepted.not_refused (h : Accepted p seconds w r) : ¬ Refused p seconds w := by
  rintro ⟨f, -, hrefused⟩
  cases hrefused.symm.trans h

theorem refused_or_accepted (p : Publication) (seconds : Int) (hanswer : w.answer = .response r) :
    r.IsError ∧ Refused p seconds w ∨ ¬ r.IsError ∧ Accepted p seconds w r := by
  have hopen := runIn_download p.url seconds hanswer
  rw [← r.isSome_refusal?_iff p.url]
  cases hrefusal : r.refusal? p.url with
  | some reason =>
    rw [hrefusal] at hopen
    exact Or.inl ⟨rfl, _, rfl, hopen⟩
  | none =>
    rw [hrefusal] at hopen
    exact Or.inr ⟨nofun, hopen⟩

theorem refused_iff (p : Publication) (seconds : Int) (hanswer : w.answer = .response r) :
    Refused p seconds w ↔ r.IsError := by
  rcases refused_or_accepted p seconds hanswer with ⟨herror, h⟩ | ⟨hother, h⟩
  · exact iff_of_true h herror
  · exact iff_of_false h.not_refused hother

end Artifact

/-! ## Runs that get a response -/

namespace Cli

variable {arguments : List String} {environment : List (String × String)} {w w' : World}
variable {destination : String} {p : Publication} {r : Http.Response}

/-- A command line that gets the binary to a destination, where the binary turns out to be
published. -/
def Seeks (arguments : List String) (environment : List (String × String)) (w : World)
    (destination : String) (p : Publication) : Prop :=
  ∃ verbose request resolution w₁,
    Invocation.parse arguments = .ok (some ⟨verbose, .fetch request destination⟩) ∧
      (request.resolve environment).runIn w = (.ok resolution, w₁) ∧
      resolution.artifact = .published p

/-- A run ends with the status 1 and leaves the files as they were. -/
def Declines (arguments : List String) (environment : List (String × String)) (w : World) : Prop :=
  ∃ report w', (run arguments environment).runIn w = (.ok report, w') ∧ report.status = 1 ∧
    w'.files = w.files

/-- A failure of the network is reported. -/
theorem runIn_reportOf_network {f : Failure} (hf : f.kind = .network) (p : Path) (w : World) :
    (reportOf p (.error f)).runIn w = (.ok (.failed f.message), w) := by
  have hreported : (reportFailure f).runIn w = (.ok (.failed f.message), w) := by
    rw [runIn_reportFailure, reported, hf]
    rfl
  cases f with
  | os cause => cases hf
  | _ => exact hreported

/-- A destination at which a file is can be opened. -/
theorem openDestination_of_file (hw : w.Rooted) {p : Path} {o : List UInt8}
    (hfile : w.node? p = some (.file o)) :
    ∃ l w', w.locate p = .ok l ∧ (openDestination p).runIn w = (.ok l, w') := by
  rw [World.node?] at hfile
  split at hfile
  · next l hl =>
    have hparent : w.isDirectory p.parent = true := by
      obtain ⟨root, names⟩ := p
      cases names using List.reverseRecOn with
      | nil =>
        cases (World.locate_eq_ok_iff_walk.1 hl).2
        rw [hw.start] at hfile
        cases hfile
      | append_singleton names s =>
        obtain ⟨-, m, hm, hdirectory, -⟩ := World.locate_append_singleton_iff.1 hl
        rw [World.isDirectory, Path.parent, List.dropLast_concat, World.node?, hm, beq_iff_eq]
        exact hdirectory
    refine ⟨l, { w with files := w.files.set l (.file []) }, hl, ?_⟩
    rw [openDestination, runIn_bind_ok (runIn_ensureDirectories_of_directory hparent)]
    rcases writeFile_cases p [] w with ⟨f, hwrite⟩ | ⟨l', hl', -, hwrite⟩
    · rw [writeFile, runIn_bind, runIn_locate, hl] at hwrite
      dsimp only at hwrite
      rw [runIn_bind_ok (runIn_get w), hfile] at hwrite
      cases hwrite
    · cases hl.symm.trans hl'
      exact hwrite
  · cases hfile

/-- The binary that a run is to get is opened unless the response is refused. -/
theorem Seeks.opens (h : Seeks arguments environment w destination p) (hw : w.Sound)
    (hanswer : w.answer = .response r) :
    ∃ verbose request, Invocation.parse arguments =
        .ok (some ⟨verbose, .fetch request destination⟩) ∧
      ∃ w₁, w₁.files = w.files ∧ w₁.stage = w.stage ∧
        (r.IsError ∧ (∃ f, f.kind = .network ∧
            (openBinary request environment).runIn w = (.error f, w₁)) ∨
          ¬ r.IsError ∧ (openBinary request environment).runIn w =
            (.ok ⟨.download ⟨p.url, r.body, []⟩, true⟩, w₁)) := by
  obtain ⟨verbose, request, resolution, w₀, hparse, hresolution, hartifact⟩ := h
  obtain ⟨hfiles, hstage⟩ := (request.resolve_tidy environment).of_ok hw.files hresolution
  have hanswer₀ : w₀.answer = .response r :=
    (congrArg World.Stage.answer hstage).trans hanswer
  have hopen := runIn_bind_ok (f := Resolution.openArtifact) hresolution
  rw [Resolution.openArtifact, hartifact] at hopen
  refine ⟨verbose, request, hparse, ?_⟩
  rcases Artifact.refused_or_accepted p resolution.settings.downloadTimeout hanswer₀ with
    ⟨herror, f, hkind, hrefused⟩ | ⟨hother, haccepted⟩
  · refine ⟨_, ?_, ?_, Or.inl ⟨herror, f, hkind, hopen.trans hrefused⟩⟩
    · exact hfiles
    · exact hstage
  · refine ⟨_, ?_, ?_, Or.inr ⟨hother, hopen.trans haccepted⟩⟩
    · exact hfiles
    · exact hstage

/-- A refused response ends a run before a file is changed. -/
theorem Seeks.declines (h : Seeks arguments environment w destination p) (hw : w.Sound)
    (hanswer : w.answer = .response r) (herror : r.IsError) :
    Declines arguments environment w := by
  obtain ⟨verbose, request, hparse, w₁, hfiles, -, ⟨-, f, hkind, hopen⟩ | ⟨hother, -⟩⟩ :=
    h.opens hw hanswer
  · have hget := runIn_getBinary_of_error (.ofString destination) hopen
    rcases hrun : (run arguments environment).runIn w with ⟨outcome, w'⟩
    obtain ⟨outcome₀, hcommand, rfl⟩ := of_run hparse hrun
    rw [Command.run, fetchBinary_eq, runIn_bind_ok (runIn_attempt _ w), hget,
      runIn_reportOf_network hkind] at hcommand
    cases hcommand
    exact ⟨_, _, hrun, rfl, hfiles⟩
  · exact absurd herror hother

/-- After any other response a file at the destination is replaced or, if the download does not
come to its end, removed. -/
theorem Seeks.not_declines (h : Seeks arguments environment w destination p) (hw : w.Sound)
    (hanswer : w.answer = .response r) (hother : ¬ r.IsError) {o : List UInt8}
    (hfile : w.node? (.ofString destination) = some (.file o)) :
    ¬ Declines arguments environment w := by
  rintro ⟨report, w', hrun, hone, hsame⟩
  obtain ⟨verbose, request, hparse, w₁, hfiles, hstage, ⟨herror, -⟩ | ⟨-, hopen⟩⟩ :=
    h.opens hw hanswer
  · exact hother herror
  have hrooted : w₁.Rooted := hw.rooted.congr hfiles hstage
  have hfile₁ : w₁.node? (.ofString destination) = some (.file o) :=
    (World.node?_congr hfiles hstage _).trans hfile
  obtain ⟨l, w₂, hl, hdestination⟩ := openDestination_of_file hrooted hfile₁
  obtain ⟨-, f, hget⟩ := getBinary_of_failed hparse hrun (by rintro _ ⟨⟩; omega)
  obtain ⟨version, closes, hplace⟩ := runIn_getBinary_of_ok (.ofString destination) hopen
  rw [hplace] at hget
  rcases place_cases hrooted ⟨.download ⟨p.url, r.body, []⟩, true⟩ (.ofString destination) with
    ⟨f', v, -, -, f'', v', hdestination'⟩ |
    ⟨v, l', hpaved, hl', -, -, ⟨f', v', hcopy, hgone, -⟩ | ⟨octets, v', hcopy, -⟩⟩
  · cases hdestination.symm.trans hdestination'
  · rw [hcopy] at hget
    cases hget
    cases (World.locate_mono hpaved.stage (fun _ => hpaved.node?_eq) hl).symm.trans hl'
    -- The destination is gone, but the files are said to be the same.
    rw [World.node?, hl] at hfile₁
    dsimp only at hfile₁ hsame
    rw [hfiles, ← hsame, hgone.node?_self] at hfile₁
    cases hfile₁
  · rw [hcopy] at hget
    cases hget

/-- Any other response is taken for the binary, if the run comes to an end. -/
theorem Seeks.placed (h : Seeks arguments environment w destination p) (hw : w.Sound)
    (hanswer : w.answer = .response r) (hgapless : .octets [] ∉ r.body) {report : Report}
    (hrun : (run arguments environment).runIn w = (.ok report, w')) (hdone : report.status = 0) :
    w'.node? (.ofString destination) = some (.file (Http.bytes r.body)) := by
  obtain ⟨verbose, request, resolution, w₁, hparse, hresolution, hartifact⟩ := h
  obtain ⟨version, hget⟩ := getBinary_of_done hparse hrun hdone
  obtain ⟨resolution', w₁', hresolution', s, l, octets, v, hplaced⟩ := getBinary_done hw hget
  cases hresolution.symm.trans hresolution'
  rw [hartifact] at hplaced
  obtain ⟨r', hanswer', hplaced⟩ := hplaced.of_published
  cases hanswer.symm.trans hanswer'
  exact (hplaced hgapless).2

/-- A response is refused if its status is from 400 to 599, and only then.  A refused response
ends every run that is to get the binary with the status 1, and no file is changed.  Any other
response, of whatever status, is taken for the binary: where a file is at the destination, that
file does not stay, and a run with the status 0 leaves the body of the response there. -/
theorem run_fetch_answered (r : Http.Response) :
    (∀ (p : Publication) (seconds : Int) (w : World), w.answer = .response r →
      (Artifact.Refused p seconds w ↔ r.IsError) ∧
        (Artifact.Accepted p seconds w r ↔ ¬ r.IsError)) ∧
    ∀ (arguments : List String) (environment : List (String × String)) (w : World)
      (destination : String) (p : Publication), Seeks arguments environment w destination p →
      w.Sound → w.answer = .response r →
        (r.IsError → Declines arguments environment w) ∧
        (¬ r.IsError → ∀ o, w.node? (.ofString destination) = some (.file o) →
          ¬ Declines arguments environment w) ∧
        ∀ report w', (run arguments environment).runIn w = (.ok report, w') → report.status = 0 →
          .octets [] ∉ r.body →
            w'.node? (.ofString destination) = some (.file (Http.bytes r.body)) := by
  refine ⟨fun p seconds w hanswer => ⟨Artifact.refused_iff p seconds hanswer, ?_⟩, ?_⟩
  · rw [← Artifact.refused_iff p seconds hanswer]
    rcases Artifact.refused_or_accepted p seconds hanswer with ⟨-, h⟩ | ⟨-, h⟩
    · exact iff_of_false (fun h' => h'.not_refused h) (not_not.2 h)
    · exact iff_of_true h h.not_refused
  · intro arguments environment w destination p h hw hanswer
    refine ⟨h.declines hw hanswer, fun hother o => h.not_declines hw hanswer hother, ?_⟩
    intro report w' hrun hdone hgapless
    exact h.placed hw hanswer hgapless hrun hdone

/-- A world in which the server answers a download, with a file at the destination. -/
def answeredWorld (r : Http.Response) : World :=
  fetchWorld "\x7bversion: '1.2'\x7d" [(["old.jar"], .file [0x00])] (.response r)

/-- A response that says that nothing is there. -/
def notFound : Http.Response :=
  ⟨404, "Not Found", [.octets [0x3C, 0x70, 0x3E]]⟩

theorem run_fetch_answered_notFound :
    Artifact.Refused ⟨"u", "m", "g:a:v"⟩ 60 (answeredWorld notFound) ∧
      Declines (fetchArguments "old.jar") [] (answeredWorld notFound) := by
  have hsound : (answeredWorld notFound).Sound :=
    ⟨⟨by decide +kernel, by decide +kernel, by decide +kernel⟩, rfl⟩
  have hgives : (fetchRequest.resolve []).gives (answeredWorld notFound) (fun resolution _ =>
      !resolution.artifact.isFile) = true := by
    decide +kernel
  obtain ⟨resolution, w₁, hresolution, hcheck⟩ := gives_iff.1 hgives
  cases hartifact : resolution.artifact with
  | file jar =>
    rw [hartifact] at hcheck
    cases hcheck
  | published p =>
    have hseeks : Seeks (fetchArguments "old.jar") [] (answeredWorld notFound) "old.jar" p :=
      ⟨false, fetchRequest, resolution, w₁, rfl, hresolution, hartifact⟩
    have herror : notFound.IsError := by decide
    obtain ⟨hopen, hfetch⟩ := run_fetch_answered notFound
    exact ⟨(hopen _ _ _ rfl).1.2 herror, (hfetch _ _ _ _ p hseeks hsound rfl).1 herror⟩

/-- A response that leaves a choice, with a page about it. -/
def multipleChoices : Http.Response :=
  ⟨300, "Multiple Choices", [.octets [0x3C, 0x70, 0x3E]]⟩

/-- A page can be taken for the binary. -/
theorem run_fetch_multipleChoices :
    ¬ multipleChoices.IsSuccess ∧
      ¬ Artifact.Refused ⟨"u", "m", "g:a:v"⟩ 60 (answeredWorld multipleChoices) ∧
      (answeredWorld multipleChoices).node? (.ofString "old.jar") = some (.file [0x00]) ∧
      ∃ report w', (run (fetchArguments "old.jar") []).runIn (answeredWorld multipleChoices) =
          (.ok report, w') ∧
        report.status = 0 ∧ w'.calls.length = 1 ∧
        w'.node? (.ofString "old.jar") = some (.file [0x3C, 0x70, 0x3E]) := by
  have hgives : (run (fetchArguments "old.jar") []).gives (answeredWorld multipleChoices)
      (fun report w' => report.status == 0 && (w'.calls.length == 1 &&
        w'.node? (.ofString "old.jar") == some (.file [0x3C, 0x70, 0x3E]))) = true := by
    decide +kernel
  obtain ⟨report, w', hrun, hcheck⟩ := gives_iff.1 hgives
  simp only [Bool.and_eq_true, beq_iff_eq] at hcheck
  have hrefused := mt (Artifact.refused_iff ⟨"u", "m", "g:a:v"⟩ 60
    (show (answeredWorld multipleChoices).answer = .response multipleChoices from rfl)).1
  exact ⟨by decide, hrefused (by decide), by decide +kernel, report, w', hrun, hcheck⟩

end Cli

end ModBuild
