import ModBuild.Proofs.Artifact.Stream
import ModBuild.Proofs.World.Failing

/-!
# How a binary fails

A binary that cannot be opened or read to its end fails in a way that is reported, or for a
reason of the file system.
-/

namespace ModBuild

open ModBuild.Action

namespace Download

variable {d : Download} {f : Failure}

theorem fetch_fails {limit : Nat} (h : d.fetch limit = .error f) : f.IsReported := by
  unfold fetch at h
  split at h
  · cases h
  · split at h <;> cases h
  · cases h
    rfl
  · cases h
    rfl

theorem fetchBlocks_fails {p : Progress} {fuel : Nat} (h : d.fetchBlocks p fuel = .error f) :
    f.IsReported := by
  induction fuel generalizing d p with
  | zero => cases h
  | succ fuel ih =>
    rw [fetchBlocks] at h
    dsimp only at h
    split at h
    · cases h
    · cases hfetch : d.fetch (p.missing / blockSize * blockSize) with
      | error g =>
        rw [hfetch] at h
        cases h
        exact fetch_fails hfetch
      | ok r =>
        rw [hfetch] at h
        obtain ⟨bs, d'⟩ := r
        change (if bs = [] then _ else _) = _ at h
        split at h
        · cases h
        · exact ih h

theorem fill_fails {room : Nat} {p : Progress} {fuel : Nat} (h : d.fill room p fuel = .error f) :
    f.IsReported := by
  induction fuel generalizing d room p with
  | zero => cases h
  | succ fuel ih =>
    rw [fill] at h
    split at h
    · cases h
    · cases hfetch : d.fetch room with
      | error g =>
        rw [hfetch] at h
        cases h
        exact fetch_fails hfetch
      | ok r =>
        rw [hfetch] at h
        obtain ⟨bs, d'⟩ := r
        change (if bs = [] then _ else _) = _ at h
        split at h
        · cases h
        · exact ih h

theorem read_fails {count : Nat} (h : d.read count = .error f) : f.IsReported := by
  rw [read] at h
  split at h
  · cases h
  · dsimp only at h
    generalize hblocks : fetchBlocks _ _ _ = blocks at h
    cases blocks with
    | error g =>
      cases h
      exact fetchBlocks_fails hblocks
    | ok r =>
      obtain ⟨p, d'⟩ := r
      change (if p.ended = true then _ else _) = _ at h
      split at h
      · cases h
      · generalize hfill : fill _ _ _ _ = filled at h
        cases filled with
        | error g =>
          cases h
          exact fill_fails hfill
        | ok r => cases h

end Download

theorem Stream.read_failsOnly (s : Stream) (count : Nat) :
    FailsOnly Failure.IsReported (s.read count) := by
  intro w f w' h
  rw [Stream.runIn_read] at h
  split at h
  · split at h
    · cases h
    · next d _ =>
      cases hread : d.read count with
      | error g =>
        rw [hread] at h
        cases h
        exact Download.read_fails hread
      | ok r =>
        rw [hread] at h
        cases h
  · cases h
    rfl

theorem Stream.close_failsOnly {P : Failure → Prop} (s : Stream) : FailsOnly P s.close := by
  intro w f w' h
  obtain ⟨closes, s', hclose⟩ := s.close_cases w
  rw [hclose] at h
  cases h

theorem Artifact.openStream_failsOnly (a : Artifact) (seconds : Int) :
    FailsOnly Failure.IsAnswered (a.openStream seconds) := by
  cases a with
  | file path =>
    refine (readFile_failsOnly path).attempt_bind (fun _ => ?_) fun f hf => ?_
    · exact ((Action.locate_failsOnly path).mono fun f => Failure.OfPath.isAnswered).bind fun _ => .pure _
    · rcases hf with ⟨cause, rfl⟩ | ⟨rfl, -⟩
      · exact .throw (Or.inl rfl)
      · exact .throw (Or.inl rfl)
  | published p =>
    refine (FailsOnly.write _ _ _).bind fun _ => (FailsOnly.record _).bind fun _ =>
      .get_bind fun w => ?_
    split
    · next fault _ =>
      cases fault with
      | system message => exact .throw (Or.inr ⟨_, rfl⟩)
      | _ => exact .throw (Or.inl rfl)
    · split
      · exact (FailsOnly.modify _).bind fun _ => .throw (Or.inl rfl)
      · exact .pure _

end ModBuild
