import ModBuild.Proofs.Artifact.Stream

/-!
# Reading a publication

The octets of a published binary are read one request after the other (`Stream.readEach`).  Each
request gets the octets that come next, as many as it asks for or all that are left, and the first
one that asks for more than there are in front of a failure fails (`Http.answers`).  The pieces in
which the server sends the body have no part in that (`openStream_answers`).
-/

namespace ModBuild

open ModBuild.Action

/-- The answers to some requests, each for a number of octets or, if the number is -1, for all
that are left.  A request for more than there are gets all of them, or it fails if the body does,
and then it is the last one. -/
def Http.answers (octets : List UInt8) (fault : Option Failure) :
    List Int → List (Except Failure (List UInt8))
  | [] => []
  | count :: counts =>
    if count = -1 ∨ octets.length < count then
      match fault with
      | some f => [.error f]
      | none => .ok octets :: answers [] fault counts
    else
      .ok (octets.take count.toNat) :: answers (octets.drop count.toNat) fault counts

namespace Stream

/-- Make some requests one after the other, up to the first that fails. -/
def readEach (s : Stream) : List Int → Action (List (Except Failure (List UInt8)))
  | [] => return []
  | count :: counts => do
    match ← Action.attempt (s.read count) with
    | .error f => return [.error f]
    | .ok (octets, s) => return .ok octets :: (← s.readEach counts)

/-- A stream on a download that can be read. -/
def onDownload (d : Download) : Stream :=
  ⟨.download d, true⟩

theorem runIn_read_download (d : Download) {count : Int} (hcount : -1 ≤ count) (w : World) :
    ((onDownload d).read count).runIn w =
      ((if count = -1 then d.readAll else d.read count.toNat).map
        fun r => (r.1, onDownload r.2), w) := by
  have hlower : ¬ count < -1 := by omega
  rw [read, if_neg hlower]
  change (Action.ofExcept (if count = -1 then d.readAll else d.read count.toNat) >>= _).runIn w = _
  rw [runIn_bind, runIn_ofExcept]
  cases (if count = -1 then d.readAll else d.read count.toNat) <;> rfl

variable {d d' : Download} {octets rest : List UInt8} {tail : List Http.Piece}
variable {fault : Option Failure} {counts : List Int} {w : World}

theorem runIn_readEach_ok {count : Int} (hcount : -1 ≤ count)
    (h : (if count = -1 then d.readAll else d.read count.toNat) = .ok (octets, d'))
    {outcomes : List (Except Failure (List UInt8))}
    (hnext : ((onDownload d').readEach counts).runIn w = (.ok outcomes, w)) :
    ((onDownload d).readEach (count :: counts)).runIn w = (.ok (.ok octets :: outcomes), w) := by
  rw [readEach, runIn_bind_ok (runIn_attempt _ w), runIn_read_download d hcount, h]
  exact runIn_bind_ok hnext

theorem runIn_readEach_error {count : Int} (hcount : -1 ≤ count) {f : Failure}
    (h : (if count = -1 then d.readAll else d.read count.toNat) = .error f) :
    ((onDownload d).readEach (count :: counts)).runIn w = (.ok [.error f], w) := by
  rw [readEach, runIn_bind_ok (runIn_attempt _ w), runIn_read_download d hcount, h]
  rfl

/-- Requests are answered by the octets that a download gives and by the way in which it ends. -/
theorem runIn_readEach (h : d.Holds octets tail fault) (hcounts : ∀ n ∈ counts, -1 ≤ n)
    (w : World) :
    ((onDownload d).readEach counts).runIn w = (.ok (Http.answers octets fault counts), w) := by
  induction counts generalizing d octets with
  | nil => rfl
  | cons count counts ih =>
    obtain ⟨hcount, hcounts⟩ := List.forall_mem_cons.1 hcounts
    rw [Http.answers.eq_def]
    dsimp only
    by_cases hall : count = -1
    · rw [if_pos (Or.inl hall)]
      rcases h.readAll_cases with ⟨rfl, d', hread, hholds⟩ | ⟨f, rfl, hread⟩
      · exact runIn_readEach_ok hcount ((if_pos hall).trans hread) (ih hholds hcounts)
      · exact runIn_readEach_error hcount ((if_pos hall).trans hread)
    · rcases h.read_cases count.toNat with ⟨bs, rest, d', hread, hsplit, hlength, hholds⟩ |
        ⟨hshort, ⟨rfl, d', hread, hholds⟩ | ⟨f, rfl, hread⟩⟩
      · have henough : ¬ (count = -1 ∨ (octets.length : Int) < count) := by
          rw [hsplit, List.length_append]
          omega
        rw [if_neg henough, hsplit, ← hlength, List.take_left, List.drop_left]
        exact runIn_readEach_ok hcount ((if_neg hall).trans hread) (ih hholds hcounts)
      · rw [if_pos (Or.inr (by omega))]
        exact runIn_readEach_ok hcount ((if_neg hall).trans hread) (ih hholds hcounts)
      · rw [if_pos (Or.inr (by omega))]
        exact runIn_readEach_error hcount ((if_neg hall).trans hread)

end Stream

namespace Artifact

/-- Requests to a publication are answered by the octets of its body in their order, whatever the
pieces are that the server sends, and by the way in which the body ends.  A piece at which the
connection breaks makes the answer a failure of the network. -/
theorem openStream_answers (p : Publication) (seconds : Int) {w : World} {r : Http.Response}
    (hanswer : w.answer = .response r) (haccepted : r.refusal? p.url = none)
    {chunks : List (List UInt8)} (hchunks : [] ∉ chunks) {tail : List Http.Piece}
    {fault : Option Failure} (hend : Download.EndsWith p.url tail fault)
    (hbody : r.body = chunks.map .octets ++ tail) {counts : List Int}
    (hcounts : ∀ n ∈ counts, -1 ≤ n) :
    (do (← (published p).openStream seconds).readEach counts).runIn w =
        (.ok (Http.answers chunks.flatten fault counts), w.requested p.url seconds) ∧
      ∀ f, fault = some f →
        (f.kind = .network ↔ ∃ message later, tail = .broken message :: later) := by
  constructor
  · have hopen := runIn_download p.url seconds hanswer
    rw [haccepted] at hopen
    have hholds : Download.Holds ⟨p.url, r.body, []⟩ chunks.flatten tail fault :=
      ⟨⟨chunks, hchunks, hbody, rfl⟩, hend⟩
    exact (runIn_bind_ok hopen).trans (Stream.runIn_readEach hholds hcounts _)
  · rintro f rfl
    cases hend with
    | broken message later => exact iff_of_true rfl ⟨message, later, rfl⟩
    | foreign message later => exact iff_of_false (by nofun) (by nofun)

/-- The pieces of a body in front of the one at which the connection breaks. -/
def brokenPieces : List (List UInt8) :=
  [[0x50, 0x4B], [0x03], [0x04, 0x05]]

/-- A response with such a body. -/
def brokenResponse : Http.Response :=
  ⟨200, "OK", brokenPieces.map .octets ++ [.broken "reset"]⟩

theorem openStream_answers_brokenResponse :
    ∃ w w', (do (← (published ⟨"u", "m", "g:a:v"⟩).openStream 60).readEach [1, 3, 0, 2]).runIn w =
      (.ok [.ok [0x50], .ok [0x4B, 0x03, 0x04], .ok [], .error (.downloadInterrupted "u" "reset")],
        w') := by
  let w : World := { World.offline .empty with answer := .response brokenResponse }
  have hanswer : w.answer = .response brokenResponse := rfl
  have hpieces : [] ∉ brokenPieces := by decide
  have hcounts : ∀ n ∈ [1, 3, 0, 2], (-1 : Int) ≤ n := by decide
  obtain ⟨h, -⟩ := openStream_answers ⟨"u", "m", "g:a:v"⟩ 60 hanswer rfl hpieces
    (.broken "reset" []) rfl hcounts
  exact ⟨w, _, h⟩

end Artifact

end ModBuild
