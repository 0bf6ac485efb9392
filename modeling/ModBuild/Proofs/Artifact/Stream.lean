import ModBuild.Artifact.Stream
import ModBuild.Proofs.Artifact.Download
import ModBuild.Proofs.Files.Paved

/-!
# What a stream gives

Opening and reading a stream changes neither the files nor the stage.  A stream gives
the octets of the file as it is at the time, or those of the body (`read_ok`).
-/

namespace ModBuild

open ModBuild.Action

namespace Stream

/-- The octets that a stream can still give. -/
def octets (s : Stream) (files : FileTree) : List UInt8 :=
  match s.source with
  | .file place position => (octetsAt files place).drop position
  | .download d => d.rest

/-- No piece of the body is empty, if there is a body. -/
def Gapless (s : Stream) : Prop :=
  ∀ d, s.source = .download d → d.Gapless

theorem Gapless.of_file {s : Stream} {l : Location} {position : Nat}
    (h : s.source = .file l position) : s.Gapless := by
  intro d hd
  rw [h] at hd
  cases hd

/-- No piece of the body is a failure, if there is a body. -/
def Unbroken (s : Stream) : Prop :=
  ∀ d, s.source = .download d → ∀ piece ∈ d.body, ∃ bs, piece = .octets bs

theorem Unbroken.of_file {s : Stream} {l : Location} {position : Nat}
    (h : s.source = .file l position) : s.Unbroken := by
  intro d hd
  rw [h] at hd
  cases hd

/-- The octets come from the file at a location. -/
def ReadsFrom (s : Stream) (l : Location) : Prop :=
  ∃ position, s.source = .file l position

theorem size_eq (s : Stream) (w : World) : s.size w = (s.octets w.files).length := by
  obtain ⟨source, isOpen⟩ := s
  cases source with
  | file place position => simp [size, octets]
  | download d => exact d.length_rest.symm

/-- The octets of a file are those that it has at the time. -/
theorem octets_congr {s : Stream} {t t' : FileTree}
    (h : ∀ l, s.ReadsFrom l → t'.node? l = t.node? l) : s.octets t' = s.octets t := by
  obtain ⟨source, isOpen⟩ := s
  cases source with
  | file place position =>
    have hnode := h place ⟨position, rfl⟩
    rw [octets, octets]
    dsimp only
    rw [octetsAt, octetsAt, hnode]
  | download d => rfl

variable {s s' : Stream} {w w' : World} {bs : List UInt8}

theorem runIn_read (s : Stream) (count : Nat) (w : World) :
    (s.read count).runIn w =
      (if s.isOpen then
        match s.source with
        | .file place position =>
          let bs := ((octetsAt w.files place).drop position).take count
          .ok (bs, { s with source := .file place (position + bs.length) })
        | .download d =>
          match d.read count with
          | .ok (bs, d) => .ok (bs, { s with source := .download d })
          | .error f => .error f
      else .error (.closed "read of closed file"), w) := by
  have hcount : ¬ (count : Int) < -1 := by omega
  have hall : (count : Int) ≠ -1 := by omega
  obtain ⟨source, isOpen⟩ := s
  rw [read, if_neg hcount]
  cases isOpen with
  | false => rfl
  | true =>
    simp only [Bool.not_true, Bool.false_eq_true, if_false, if_true]
    cases source with
    | file place position =>
      dsimp only
      rw [runIn_bind_ok (runIn_get w), if_neg hall]
      rfl
    | download d =>
      dsimp only
      rw [if_neg hall, runIn_bind, runIn_ofExcept, Int.toNat_natCast]
      cases d.read count <;> rfl

theorem read_preserves (s : Stream) (I : World → Prop) (count : Nat) :
    Preserves I (s.read count) := by
  intro w h
  rw [runIn_read]
  exact h

/-- A read gives as many octets as were asked for, or all that are left.  There are none
only at the end, and the end is reached only if nothing breaks. -/
theorem read_ok (hs : s.Gapless) {count : Nat} (hcount : 0 < count)
    (h : (s.read count).runIn w = (.ok (bs, s'), w')) :
    w' = w ∧ bs ++ s'.octets w.files = s.octets w.files ∧ s'.Gapless ∧
      (bs = [] → s.octets w.files = [] ∧ s.Unbroken) ∧ (s'.Unbroken → s.Unbroken) ∧
      ∀ l, s'.ReadsFrom l → s.ReadsFrom l := by
  obtain ⟨source, isOpen⟩ := s
  rw [runIn_read] at h
  cases isOpen with
  | false => cases h
  | true =>
    cases source with
    | file place position =>
      cases h
      refine ⟨rfl, ?_, .of_file rfl, fun hnil => ⟨?_, .of_file rfl⟩, fun _ => .of_file rfl, ?_⟩
      · show List.take count _ ++ List.drop (position + _) _ = List.drop position _
        rw [← List.drop_drop]
        exact List.prefix_iff_eq_append.1 (List.take_prefix count _)
      · exact (List.take_eq_nil_iff.1 hnil).resolve_left (Nat.ne_of_gt hcount)
      · rintro l ⟨position', hl⟩
        cases hl
        exact ⟨position, rfl⟩
    | download d =>
      rw [if_pos rfl] at h
      dsimp only at h
      cases hread : d.read count with
      | error f =>
        rw [hread] at h
        cases h
      | ok r =>
        obtain ⟨bs', d'⟩ := r
        rw [hread] at h
        cases h
        obtain ⟨hgave, hlength, hend⟩ := Download.read_ok (hs d rfl) hread
        refine ⟨rfl, hgave.octets, ?_, fun hnil => ?_, fun hunbroken => ?_, ?_⟩
        · rintro _ ⟨⟩
          exact hgave.gapless
        · subst hnil
          have hatEnd : d'.AtEnd := hend hcount
          refine ⟨hgave.octets.symm.trans hatEnd.rest_eq, ?_⟩
          rintro _ ⟨⟩ piece hpiece
          refine (hgave.kept piece hpiece).resolve_right fun hlater => ?_
          rw [hatEnd.1] at hlater
          cases hlater
        · rintro _ ⟨⟩ piece hpiece
          rcases hgave.kept piece hpiece with hoctets | hpiece
          · exact hoctets
          · exact hunbroken d' rfl piece hpiece
        · rintro l ⟨position, hl⟩
          cases hl

/-- How often the response of a stream has still to be closed. -/
def due (s : Stream) : Nat :=
  match s.source, s.isOpen with
  | .download _, true => 1
  | _, _ => 0

theorem runIn_close (s : Stream) (w : World) :
    s.close.runIn w = (.ok { s with isOpen := false }, { w with closes := w.closes + s.due }) := by
  obtain ⟨source, isOpen⟩ := s
  cases source with
  | file place position => rfl
  | download d => cases isOpen <;> rfl

theorem close_cases (s : Stream) (w : World) :
    ∃ closes s', s.close.runIn w = (.ok s', { w with closes }) :=
  ⟨_, _, s.runIn_close w⟩

end Stream

/-! ## Opening -/

/-- The world after a download was asked for. -/
def World.requested (w : World) (url : String) (seconds : Int) : World :=
  { w with
    calls := w.calls ++ [.download url seconds]
    log := w.log ++ [⟨.info, "umcloader.artifact.locator", "Downloading " ++ url⟩] }

namespace Artifact

/-- A stream that was opened is at the start of its file or of its body. -/
def Opens (a : Artifact) (w : World) (s : Stream) : Prop :=
  match a with
  | file path => ∃ l octets, w.locate path = .ok l ∧ w.files.node? l = some (.file octets) ∧
      s = ⟨.file l 0, true⟩
  | published p => ∃ r, w.answer = .response r ∧ s = ⟨.download ⟨p.url, r.body, []⟩, true⟩

theorem openFile_preserves (I : World → Prop) (path : Path) : Preserves I (openFile path) := by
  refine (readFile_preserves I path).attempt.bind fun outcome => ?_
  split
  · exact Preserves.throw _
  · exact Preserves.throw _
  · exact (locate_preserves I path).bind fun _ => Preserves.pure _

theorem openStream_preserves {P : FileTree → World.Stage → Prop} (a : Artifact)
    (seconds : Int) : Preserves (fun w => P w.files w.stage) (a.openStream seconds) := by
  cases a with
  | file path => exact openFile_preserves _ path
  | published p =>
    refine (Preserves.write _ _ _).bind fun _ => (Preserves.record _).bind fun _ =>
      Preserves.get_bind fun w hw => ?_
    split
    · exact hw
    · split <;> exact hw

/-- What comes of a download that gets a response. -/
theorem runIn_download (url : String) (seconds : Int) {w : World} {r : Http.Response}
    (h : w.answer = .response r) :
    (download url seconds).runIn w =
      match r.refusal? url with
      | some reason =>
        (.error (.downloadFailed url reason),
          { w.requested url seconds with closes := w.closes + 1 })
      | none => (.ok ⟨.download ⟨url, r.body, []⟩, true⟩, w.requested url seconds) := by
  rw [download, runIn_bind_ok (runIn_write _ _ _ w), runIn_bind_ok (runIn_record _ _),
    runIn_bind_ok (runIn_get _)]
  dsimp only
  split
  · next fault hfailed => cases h.symm.trans hfailed
  · next r' hresponse =>
    cases h.symm.trans hresponse
    cases r.refusal? url <;> rfl

/-- A download that gets no response fails. -/
theorem runIn_download_of_failed (url : String) (seconds : Int) {w : World}
    {fault : Http.RequestFault} (h : w.answer = .failed fault) :
    (download url seconds).runIn w =
      (.error (requestFailure url seconds fault), w.requested url seconds) := by
  rw [download, runIn_bind_ok (runIn_write _ _ _ w), runIn_bind_ok (runIn_record _ _),
    runIn_bind_ok (runIn_get _)]
  dsimp only
  split
  · next fault' hfailed =>
    cases h.symm.trans hfailed
    rfl
  · next r hresponse => cases h.symm.trans hresponse

theorem openStream_ok {a : Artifact} {seconds : Int} {w w' : World} {s : Stream}
    (h : (a.openStream seconds).runIn w = (.ok s, w')) : a.Opens w s := by
  cases a with
  | file path =>
    rw [openStream, openFile, runIn_bind_ok (runIn_attempt _ w), runIn_readFile] at h
    cases hcontents : w.contents path with
    | error f =>
      rw [hcontents] at h
      cases f <;> cases h
    | ok octets =>
      rw [hcontents] at h
      obtain ⟨l, hl, hn⟩ := World.contents_eq_ok_iff.1 hcontents
      dsimp only at h
      rw [runIn_bind, runIn_locate, hl] at h
      cases h
      exact ⟨l, octets, hl, hn, rfl⟩
  | published p =>
    rw [openStream] at h
    cases hanswer : w.answer with
    | failed fault =>
      rw [runIn_download_of_failed p.url seconds hanswer] at h
      cases h
    | response r =>
      rw [runIn_download p.url seconds hanswer] at h
      cases hrefusal : r.refusal? p.url with
      | some reason =>
        rw [hrefusal] at h
        cases h
      | none =>
        rw [hrefusal] at h
        cases h
        exact ⟨r, hanswer, rfl⟩

/-- Only the files and the stage count. -/
theorem Opens.congr {a : Artifact} {w v : World} {s : Stream} (h : a.Opens v s)
    (hfiles : v.files = w.files) (hstage : v.stage = w.stage) : a.Opens w s := by
  cases a with
  | file path =>
    obtain ⟨l, octets, hl, hn, hs⟩ := h
    exact ⟨l, octets, World.locate_congr hfiles.symm hstage.symm hl, hfiles ▸ hn, hs⟩
  | published p =>
    obtain ⟨r, hanswer, hs⟩ := h
    exact ⟨r, (congrArg World.Stage.answer hstage).symm.trans hanswer, hs⟩

end Artifact

end ModBuild
