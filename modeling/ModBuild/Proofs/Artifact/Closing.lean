import ModBuild.Proofs.Artifact.Reads

/-!
# When a response is closed

A stream on a download is used by reads and closes, in any order.  The first close closes the
response, and nothing else does, whether reads fail or not (`Stream.runIn_useEach`).

What a run has to do with the server is its *exchange*: the answer of the server, the downloads
that were asked for, and how often the response was closed.  When a binary is opened, a response
that was obtained is closed already or it is due to be closed with the stream
(`Artifact.openStream_exchange`).
-/

namespace ModBuild

open ModBuild.Action

/-! ## Using a stream -/

namespace Stream

/-- Something that is done with a stream on a download. -/
inductive Use where
  /-- Read a number of octets, or all that are left if the number is -1.  A read that fails may
  leave any download behind. -/
  | read (count : Int) (left : Download)
  | close
deriving DecidableEq

/-- Use a stream on a download.  Behind a read that fails the stream can still be used. -/
def use (s : Stream) : Use → Action Stream
  | .read count left => do
    match ← Action.attempt (s.read count) with
    | .ok (_, s') => return s'
    | .error _ => return { s with source := .download left }
  | .close => s.close

/-- Use a stream on a download several times. -/
def useEach (s : Stream) : List Use → Action Stream
  | [] => return s
  | u :: us => do (← s.use u).useEach us

/-- A read changes nothing but the download. -/
theorem read_cases (d : Download) (isOpen : Bool) (count : Int) (w : World) :
    (∃ f, (read ⟨.download d, isOpen⟩ count).runIn w = (.error f, w)) ∨
      ∃ octets d',
        (read ⟨.download d, isOpen⟩ count).runIn w = (.ok (octets, ⟨.download d', isOpen⟩), w) := by
  by_cases hcount : count < -1
  · rw [read, if_pos hcount]
    exact Or.inl ⟨_, rfl⟩
  · cases isOpen with
    | false =>
      rw [read, if_neg hcount]
      exact Or.inl ⟨_, rfl⟩
    | true =>
      have hread := runIn_read_download d (Int.not_lt.1 hcount) w
      rcases hr : (if count = -1 then d.readAll else d.read count.toNat) with f | ⟨octets, d'⟩
      · rw [hr] at hread
        exact Or.inl ⟨f, hread⟩
      · rw [hr] at hread
        exact Or.inr ⟨octets, d', hread⟩

/-- Whether a read fails or not, the stream stays open, and the response is not closed. -/
theorem runIn_use_read (d : Download) (isOpen : Bool) (count : Int) (left : Download) (w : World) :
    ∃ d', (use ⟨.download d, isOpen⟩ (.read count left)).runIn w =
      (.ok ⟨.download d', isOpen⟩, w) := by
  rw [use, runIn_bind_ok (runIn_attempt _ w)]
  rcases read_cases d isOpen count w with ⟨f, hread⟩ | ⟨octets, d', hread⟩
  · rw [hread]
    exact ⟨left, rfl⟩
  · rw [hread]
    exact ⟨d', rfl⟩

/-- A close closes the response if the stream is open. -/
theorem runIn_use_close (d : Download) (isOpen : Bool) (w : World) :
    (use ⟨.download d, isOpen⟩ .close).runIn w =
      (.ok ⟨.download d, false⟩, { w with closes := w.closes + isOpen.toNat }) := by
  cases isOpen <;> rfl

/-- The response of an open stream is closed once if a close is among the uses, and else not. -/
theorem runIn_useEach (d : Download) (isOpen : Bool) (uses : List Use) (w : World) :
    ∃ s, (useEach ⟨.download d, isOpen⟩ uses).runIn w =
      (.ok s, { w with closes := w.closes + if .close ∈ uses then isOpen.toNat else 0 }) := by
  induction uses generalizing d isOpen w with
  | nil => exact ⟨_, rfl⟩
  | cons u us ih =>
    rw [useEach]
    cases u with
    | read count left =>
      obtain ⟨d', hread⟩ := runIn_use_read d isOpen count left w
      obtain ⟨s, hrest⟩ := ih d' isOpen w
      refine ⟨s, (runIn_bind_ok hread).trans ?_⟩
      simpa using hrest
    | close =>
      -- The stream is not open behind the first close, so whatever follows closes nothing.
      obtain ⟨s, hrest⟩ := ih d false { w with closes := w.closes + isOpen.toNat }
      refine ⟨s, (runIn_bind_ok (runIn_use_close d isOpen w)).trans ?_⟩
      simpa using hrest

end Stream

/-! ## The exchange with the server -/

/-- Whether a call asks for a download. -/
def Call.isDownload : Call → Bool
  | download .. => true
  | _ => false

/-- How many responses a request gets. -/
def Http.Answer.responses : Http.Answer → Nat
  | failed _ => 0
  | response _ => 1

namespace World

/-- What a run has to do with the server. -/
structure Exchange where
  /-- What the server answers. -/
  answer : Http.Answer
  /-- The downloads that were asked for, the first one first. -/
  downloads : List Call
  /-- How often the response was closed. -/
  closes : Nat

namespace Exchange

/-- The exchange after some more closes. -/
def closed (e : Exchange) (times : Nat) : Exchange :=
  { e with closes := e.closes + times }

/-- The exchange after some more downloads, each of whose responses was closed once. -/
def settled (e : Exchange) (downloads : List Call) : Exchange :=
  { e with
    downloads := e.downloads ++ downloads
    closes := e.closes + downloads.length * e.answer.responses }

theorem settled_nil (e : Exchange) : e.settled [] = e := by
  simp [settled]

end Exchange

/-- The exchange of a run so far. -/
def exchange (w : World) : Exchange :=
  ⟨w.answer, w.calls.filter Call.isDownload, w.closes⟩

/-- The exchange of a run is this one so far. -/
def Exchanged (e : Exchange) (w : World) : Prop :=
  w.exchange = e

theorem ignoresFiles_exchanged (e : Exchange) : Preserves.IgnoresFiles (Exchanged e) :=
  fun _ _ h => h

theorem ignoresLog_exchanged (e : Exchange) : Preserves.IgnoresLog (Exchanged e) :=
  fun _ _ h => h

/-- A download that was asked for is settled when its response, if there is one, is closed. -/
theorem closed_requested (w : World) (url : String) (seconds : Int) :
    (w.requested url seconds).exchange.closed w.answer.responses =
      w.exchange.settled [.download url seconds] := by
  simp [exchange, requested, Exchange.closed, Exchange.settled, Call.isDownload]

end World

namespace Artifact

/-- The downloads that a binary is opened with. -/
def downloads (a : Artifact) (seconds : Int) : List Call :=
  match a with
  | file _ => []
  | published p => [.download p.url seconds]

/-- When a binary is opened, every response that was obtained is closed but for the one that is
due to be closed with the stream. -/
theorem openStream_exchange (a : Artifact) (seconds : Int) (w : World) :
    match (a.openStream seconds).runIn w with
    | (.error _, w') => w'.exchange = w.exchange.settled (a.downloads seconds)
    | (.ok s, w') => w'.exchange.closed s.due = w.exchange.settled (a.downloads seconds) := by
  cases a with
  | file path =>
    have hsame : (((file path).openStream seconds).runIn w).2.exchange = w.exchange :=
      openFile_preserves (World.Exchanged w.exchange) path w rfl
    rw [downloads, World.Exchange.settled_nil]
    rcases hopen : ((file path).openStream seconds).runIn w with ⟨f | s, w'⟩
    · rw [hopen] at hsame
      exact hsame
    · obtain ⟨l, octets, -, -, rfl⟩ := openStream_ok hopen
      rw [hopen] at hsame
      exact hsame
  | published p =>
    have hsettled := w.closed_requested p.url seconds
    cases hanswer : w.answer with
    | failed fault =>
      rw [hanswer] at hsettled
      rw [openStream, runIn_download_of_failed p.url seconds hanswer]
      exact hsettled
    | response r =>
      rw [hanswer] at hsettled
      rw [openStream, runIn_download p.url seconds hanswer]
      cases r.refusal? p.url with
      | some reason => exact hsettled
      | none => exact hsettled

end Artifact

end ModBuild
