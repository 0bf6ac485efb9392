import ModBuild.Proofs.Artifact.Closing
import ModBuild.Proofs.Cli.Refused

/-!
# Closed responses

A response that is refused is closed before the failure is raised.  Any other is closed when the
stream on it is closed for the first time.  A run that gets the binary closes the stream once,
however it ends, and nothing else in it has to do with the server.  So a response that it obtained
is closed exactly once (`response_closed_once`).
-/

namespace ModBuild

open ModBuild.Action

/-! ## A stream that is opened and used -/

namespace Artifact

/-- Open a binary and use the stream. -/
def openAndUse (a : Artifact) (seconds : Int) (uses : List Stream.Use) : Action Stream := do
  (← a.openStream seconds).useEach uses

/-- A response is closed as soon as it is refused or the stream on it is closed, and never again. -/
theorem runIn_openAndUse (p : Publication) (seconds : Int) (uses : List Stream.Use) {w : World}
    {r : Http.Response} (hanswer : w.answer = .response r) :
    ∃ outcome, ((published p).openAndUse seconds uses).runIn w =
        (outcome, { w.requested p.url seconds with
          closes := w.closes + if r.IsError ∨ .close ∈ uses then 1 else 0 }) ∧
      if r.IsError then ∃ f, outcome = .error f ∧ f.kind = .network else ∃ s, outcome = .ok s := by
  rcases refused_or_accepted p seconds hanswer with
    ⟨herror, f, hkind, hrefused⟩ | ⟨hother, haccepted⟩
  · refine ⟨.error f, ?_, ?_⟩
    · rw [if_pos (Or.inl herror)]
      exact runIn_bind_error hrefused
    · rw [if_pos herror]
      exact ⟨f, rfl, hkind⟩
  · obtain ⟨s, huses⟩ :=
      Stream.runIn_useEach ⟨p.url, r.body, []⟩ true uses (w.requested p.url seconds)
    refine ⟨.ok s, ?_, ?_⟩
    · simp only [hother, false_or]
      exact (runIn_bind_ok haccepted).trans huses
    · rw [if_neg hother]
      exact ⟨s, rfl⟩

end Artifact

/-! ## A run that gets the binary -/

theorem Git.run_exchanged (e : World.Exchange) (arguments : List String) (seconds : Int)
    (target : Option Path) : Preserves (World.Exchanged e) (run arguments seconds target) := by
  have hnext : Preserves (World.Exchanged e) nextRun := nextRun_ignores fun _ _ h => h
  intro w hw
  refine run_of_started hnext (fun p _ => leave_ignores (World.ignoresFiles_exchanged e) p) ?_
  -- A run of Git is no download.
  rw [World.Exchanged, ← hw]
  simp [World.exchange, started, Call.isDownload]

namespace Cli

/-- A resolution has nothing to do with the server. -/
theorem Request.resolve_exchange (r : Request) (environment : List (String × String)) (w : World) :
    ((r.resolve environment).runIn w).2.exchange = w.exchange :=
  r.resolve_ignores (World.ignoresFiles_exchanged _) (World.ignoresLog_exchanged _)
    (Git.run_exchanged _) environment w rfl

theorem place_exchange (s : Stream) (p : Path) (w : World) :
    ((place s p).runIn w).2.exchange = w.exchange := by
  have hfiles := World.ignoresFiles_exchanged w.exchange
  exact (ensureDirectories_ignores hfiles p.parent).bind
    (fun _ => writeStream_ignores hfiles s p) w rfl

/-- What is due when the binary is opened is done at the end, however the binary is placed. -/
theorem fetchArtifact_exchange (resolution : Resolution) (p : Path) (w : World) :
    ((fetchArtifact resolution p).runIn w).2.exchange = w.exchange.settled
      (resolution.artifact.downloads resolution.settings.downloadTimeout) := by
  have hexchange := resolution.artifact.openStream_exchange resolution.settings.downloadTimeout w
  rw [fetchArtifact, Resolution.openArtifact]
  rcases hopen : (resolution.artifact.openStream resolution.settings.downloadTimeout).runIn w with
    ⟨f | s, v⟩
  · rw [hopen] at hexchange
    rw [runIn_bind_error hopen]
    exact hexchange
  · -- The binary is placed without the server, and then the stream is closed in any case.
    rw [hopen] at hexchange
    rw [runIn_bind_ok hopen, runIn_bind_ok (runIn_attempt _ v), runIn_bind_ok (s.runIn_close _),
      runIn_ofExcept, ← hexchange, ← place_exchange s p v]
    rfl

/-- The downloads that the outcome of a resolution leads to: one if the binary is published. -/
def downloadsOf : Except Failure Resolution → List Call
  | .error _ => []
  | .ok resolution => resolution.artifact.downloads resolution.settings.downloadTimeout

theorem length_downloadsOf_le (outcome : Except Failure Resolution) :
    (downloadsOf outcome).length ≤ 1 := by
  cases outcome with
  | error f => exact Nat.zero_le 1
  | ok resolution =>
    rw [downloadsOf]
    cases resolution.artifact with
    | file path => exact Nat.zero_le 1
    | published p => exact Nat.le_refl 1

theorem getBinary_exchange (request : Request) (p : Path) (environment : List (String × String))
    (w : World) :
    ((getBinary request p environment).runIn w).2.exchange =
      w.exchange.settled (downloadsOf ((request.resolve environment).runIn w).1) := by
  have hresolve := request.resolve_exchange environment w
  rw [getBinary]
  rcases hresolution : (request.resolve environment).runIn w with ⟨f | resolution, v⟩
  · rw [hresolution] at hresolve
    rw [runIn_bind_error hresolution, downloadsOf, World.Exchange.settled_nil]
    exact hresolve
  · rw [hresolution] at hresolve
    have hfetch := fetchArtifact_exchange resolution p v
    rw [hresolve] at hfetch
    rw [runIn_bind_ok hresolution, downloadsOf]
    exact Preserves.behind (I := World.Exchanged _) hfetch fun _ => .pure _

/-- A run leaves the world that getting the binary leaves. -/
theorem runIn_run_fetch {arguments : List String} {verbose : Bool} {request : Request}
    {destination : String}
    (hparse : Invocation.parse arguments = .ok (some ⟨verbose, .fetch request destination⟩))
    (environment : List (String × String)) (w : World) :
    ((run arguments environment).runIn w).2 =
      ((getBinary request (.ofString destination) environment).runIn w).2 := by
  have hrun := run_fetch hparse environment w
  rcases hget : (getBinary request (.ofString destination) environment).runIn w with
    ⟨f | version, w'⟩
  · rw [hget] at hrun
    rcases hrun with ⟨report, hreport, -⟩ | ⟨f', hfailed⟩
    · rw [hreport]
    · rw [hfailed]
  · rw [hget] at hrun
    obtain ⟨report, hreport, -⟩ := hrun
    rw [hreport]

/-- Whatever is done with a binary that is downloaded, its response is closed exactly once if it is
refused or the stream on it was closed at all, and else it is not closed.  The uses are any, so this
is how it stands after each of them.  A refused response is closed before the failure is raised.

A run that gets the binary asks for at most one download.  If it obtained a response, it has closed
this exactly once at the end, however it ends. -/
theorem response_closed_once (w : World) :
    (∀ (r : Http.Response) (p : Publication) (seconds : Int) (uses : List Stream.Use),
      w.answer = .response r →
        ∃ outcome, ((Artifact.published p).openAndUse seconds uses).runIn w =
            (outcome, { w.requested p.url seconds with
              closes := w.closes + if r.IsError ∨ .close ∈ uses then 1 else 0 }) ∧
          if r.IsError then ∃ f, outcome = .error f ∧ f.kind = .network
          else ∃ s, outcome = .ok s) ∧
    ∀ (arguments : List String) (environment : List (String × String)) (verbose : Bool)
      (request : Request) (destination : String),
      Invocation.parse arguments = .ok (some ⟨verbose, .fetch request destination⟩) →
        let w' := ((run arguments environment).runIn w).2
        let asked := downloadsOf ((request.resolve environment).runIn w).1
        asked.length ≤ 1 ∧ w'.exchange.downloads = w.exchange.downloads ++ asked ∧
          w'.closes = w.closes + asked.length * w.answer.responses := by
  constructor
  · intro r p seconds uses hanswer
    exact Artifact.runIn_openAndUse p seconds uses hanswer
  · intro arguments environment verbose request destination hparse w' asked
    have hexchange : w'.exchange = w.exchange.settled asked := by
      rw [show w' = _ from runIn_run_fetch hparse environment w]
      exact getBinary_exchange request _ environment w
    exact ⟨length_downloadsOf_le _, congrArg World.Exchange.downloads hexchange,
      congrArg World.Exchange.closes hexchange⟩

/-- Reads of which the second one comes to the place where the connection breaks. -/
def readsToBreak : List Stream.Use :=
  [.read 2 ⟨"u", [], []⟩, .read 1 ⟨"u", [], []⟩]

/-- Closes, with another read between them. -/
def closesAround : List Stream.Use :=
  [.close, .read 1 ⟨"u", [], []⟩, .close]

theorem response_closed_once_interrupted :
    let binary := Artifact.published ⟨"u", "m", "g:a:v"⟩
    ((binary.openAndUse 60 readsToBreak).runIn interrupted).2.closes = 0 ∧
      ((binary.openAndUse 60 (readsToBreak ++ closesAround)).runIn interrupted).2.closes = 1 ∧
      ((binary.openAndUse 60 []).runIn (answeredWorld notFound)).2.closes = 1 ∧
      ((run (fetchArguments "old.jar") []).runIn interrupted).2.closes = 1 := by
  intro binary
  obtain ⟨hstream, hfetch⟩ := response_closed_once interrupted
  obtain ⟨hrefused, -⟩ := response_closed_once (answeredWorld notFound)
  obtain ⟨_, hreads, -⟩ := hstream _ ⟨"u", "m", "g:a:v"⟩ 60 readsToBreak rfl
  obtain ⟨_, hcloses, -⟩ := hstream _ ⟨"u", "m", "g:a:v"⟩ 60 (readsToBreak ++ closesAround) rfl
  obtain ⟨_, hnotFound, -⟩ := hrefused _ ⟨"u", "m", "g:a:v"⟩ 60 [] rfl
  have hgives : (fetchRequest.resolve []).gives interrupted
      (fun resolution _ => (downloadsOf (.ok resolution)).length == 1) = true := by
    decide +kernel
  obtain ⟨resolution, w₁, hresolution, hone⟩ := gives_iff.1 hgives
  obtain ⟨-, -, hrun⟩ := hfetch (fetchArguments "old.jar") [] false fetchRequest "old.jar" rfl
  rw [hresolution, beq_iff_eq.1 hone] at hrun
  exact ⟨by rw [hreads]; rfl, by rw [hcloses]; rfl, by rw [hnotFound]; rfl, hrun⟩

end Cli

end ModBuild
