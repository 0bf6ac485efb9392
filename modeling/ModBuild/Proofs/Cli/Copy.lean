import ModBuild.Cli.Fetch
import ModBuild.Proofs.Artifact.Stream

/-!
# Copying a stream to a file

A copy changes nothing but its target.  If it comes to an end, the target has the
octets of the stream, unless it is the file that the stream comes from: this file is
emptied before the first octet is read (`writeStream_cases`).  If it fails, the target
is gone.
-/

namespace ModBuild

namespace Cli

open ModBuild.Action

variable {s : Stream} {l : Location} {t : FileTree} {w w' : World}

/-! ## The loop -/

/-- A file is at a location, and nothing else is not as it was. -/
def WritesAt (t : FileTree) (stage : World.Stage) (l : Location) (octets : List UInt8)
    (w : World) : Prop :=
  t.OnlyAt l (some (.file octets)) w.files ∧ w.stage = stage

theorem runIn_append (hl : l ≠ []) {stage : World.Stage} {before : List UInt8}
    (h : WritesAt t stage l before w) (octets : List UInt8) :
    ∃ w', (append l octets).runIn w = (.ok (), w') ∧ WritesAt t stage l (before ++ octets) w' := by
  have hnode : w.files.node? l = some (.file before) := h.1.node?_self
  refine ⟨{ w with files := w.files.set l (.file (before ++ octets)) }, ?_, h.1.set hl _, h.2⟩
  rw [append, runIn_bind_ok (runIn_get w)]
  dsimp only
  rw [hnode]
  rfl

theorem copyStream_ignores {I : World → Prop} (h : Preserves.IgnoresFiles I) (s : Stream)
    (l : Location) (fuel : Nat) : Preserves I (copyStream s l fuel) := by
  induction fuel generalizing s with
  | zero => exact Preserves.pure ()
  | succ fuel ih =>
    refine Preserves.bind (s.read_preserves I _) fun r => ?_
    obtain ⟨bs, s'⟩ := r
    dsimp only
    split
    · exact Preserves.pure ()
    · exact (append_ignores h l bs).bind fun _ => ih s'

/-- However a copy ends, it has changed nothing but its target. -/
theorem copyStream_writesAt (hl : l ≠ []) {stage : World.Stage} (s : Stream) (fuel : Nat) :
    Preserves (fun w => ∃ octets, WritesAt t stage l octets w) (copyStream s l fuel) := by
  induction fuel generalizing s with
  | zero => exact Preserves.pure ()
  | succ fuel ih =>
    refine Preserves.bind (s.read_preserves _ _) fun r => ?_
    obtain ⟨bs, s'⟩ := r
    dsimp only
    split
    · exact Preserves.pure ()
    · refine Preserves.bind (fun w h => ?_) fun _ => ih s'
      obtain ⟨before, hbefore⟩ := h
      obtain ⟨w', hrun, hafter⟩ := runIn_append hl hbefore bs
      rw [hrun]
      exact ⟨_, hafter⟩

/-- A stream is copied to its end.  It may come from the target only if it has no octets. -/
theorem copyStream_ok (hl : l ≠ []) {stage : World.Stage} {before : List UInt8} {fuel : Nat}
    (hs : s.Gapless) (hfuel : (s.octets w.files).length < fuel)
    (hown : s.ReadsFrom l → s.octets w.files = []) (hw : WritesAt t stage l before w)
    (h : (copyStream s l fuel).runIn w = (.ok (), w')) :
    WritesAt t stage l (before ++ s.octets w.files) w' ∧ s.Unbroken := by
  induction fuel generalizing s w before with
  | zero => exact absurd hfuel (Nat.not_lt_zero _)
  | succ fuel ih =>
    obtain ⟨⟨bs, s'⟩, w₁, hread, hnext⟩ := of_runIn_bind_ok h
    obtain ⟨rfl, hoctets, hs', hnil, hunbroken, hfrom⟩ := s.read_ok hs (by decide) hread
    dsimp only at hnext
    split at hnext
    · next hbs =>
      cases hnext
      obtain ⟨hempty, hend⟩ := hnil hbs
      rw [hempty, List.append_nil]
      exact ⟨hw, hend⟩
    · next hbs =>
      obtain ⟨w₂, hrun, hw₂⟩ := runIn_append hl hw bs
      rw [runIn_bind_ok hrun] at hnext
      -- Something was read, so the stream does not come from the target.
      have hapart : ¬ s.ReadsFrom l := by
        intro hfrom
        rw [hown hfrom] at hoctets
        exact hbs (List.append_eq_nil_iff.1 hoctets).1
      have hapart' : ¬ s'.ReadsFrom l := fun hl' => hapart (hfrom l hl')
      have hsame : s'.octets w₂.files = s'.octets w₁.files := by
        refine Stream.octets_congr fun q hq => ?_
        have hne : q ≠ l := fun he => hapart' (he ▸ hq)
        rw [hw₂.1.node?_of_ne hne, hw.1.node?_of_ne hne]
      have hlength : bs.length + (s'.octets w₁.files).length = (s.octets w₁.files).length := by
        rw [← List.length_append, hoctets]
      have hpos : 0 < bs.length := List.length_pos_iff.2 hbs
      obtain ⟨hw', hend⟩ :=
        ih hs' (by rw [hsame]; omega) (fun hl' => absurd hl' hapart') hw₂ hnext
      refine ⟨?_, hunbroken hend⟩
      rwa [hsame, List.append_assoc, hoctets] at hw'

/-! ## The target -/

/-- A file that is emptied has no octets for the stream that comes from it, and any other
stream has what it had. -/
theorem octets_emptied (s : Stream) (t : FileTree) {l : Location} (hl : l ≠ []) :
    (s.ReadsFrom l → s.octets (t.set l (.file [])) = []) ∧
      (¬ s.ReadsFrom l → s.octets (t.set l (.file [])) = s.octets t) := by
  constructor
  · rintro ⟨position, hsource⟩
    rw [Stream.octets, hsource]
    dsimp only
    rw [Stream.octetsAt, FileTree.node?_set _ _ _ _ hl, if_pos rfl]
    exact List.drop_nil
  · intro hapart
    refine Stream.octets_congr fun q hq => ?_
    have hne : q ≠ l := fun he => hapart (he ▸ hq)
    rw [FileTree.node?_set _ _ _ _ hl, if_neg hne]

theorem writeStream_ignores {I : World → Prop} (h : Preserves.IgnoresFiles I) (s : Stream)
    (p : Path) : Preserves I (writeStream s p) := by
  refine Preserves.get_bind fun w hw => ?_
  refine Preserves.bind (writeFile_ignores h p []) (fun l => ?_) w hw
  refine Preserves.bind (copyStream_ignores h s l _).attempt fun outcome => ?_
  split
  · exact Preserves.pure ()
  · exact (removeFile_ignores h p).bind fun _ => Preserves.throw _

/-- The target cannot be opened, or the copy fails and the target is gone, or the target
has what the stream gives when the target is empty. -/
theorem writeStream_cases (hw : w.Rooted) (s : Stream) (p : Path) :
    (∃ f, (writeFile p []).runIn w = (.error f, w) ∧ (writeStream s p).runIn w = (.error f, w)) ∨
      ∃ l w₁, w.locate p = .ok l ∧ w.files.node? l ≠ some .directory ∧
        (writeFile p []).runIn w = (.ok l, w₁) ∧
        ((∃ f w', (writeStream s p).runIn w = (.error f, w') ∧
            w.files.OnlyAt l none w'.files ∧ w'.stage = w.stage) ∨
          ∃ octets w', (writeStream s p).runIn w = (.ok (), w') ∧
            WritesAt w.files w.stage l octets w' ∧
            (s.Gapless → octets = s.octets (w.files.set l (.file [])) ∧ s.Unbroken)) := by
  unfold writeStream
  rw [runIn_bind_ok (runIn_get w)]
  rcases writeFile_cases p [] w with ⟨f, hf⟩ | ⟨l, hlocate, hnode, hopen⟩
  · exact Or.inl ⟨f, hf, runIn_bind_error hf⟩
  · refine Or.inr ⟨l, _, hlocate, hnode, hopen, ?_⟩
    have hl : l ≠ [] := FileTree.ne_nil_of_node? hnode
    have hempty : WritesAt w.files w.stage l [] { w with files := w.files.set l (.file []) } :=
      ⟨(FileTree.OnlyAt.refl w.files l).set hl _, rfl⟩
    rw [runIn_bind_ok hopen, runIn_bind_ok (runIn_attempt _ _)]
    generalize hcopy : (copyStream s l (s.size w + 1)).runIn
      { w with files := w.files.set l (.file []) } = result
    obtain ⟨octets, hend⟩ : ∃ octets, WritesAt w.files w.stage l octets result.2 := by
      rw [← hcopy]
      exact copyStream_writesAt hl s _ _ ⟨[], hempty⟩
    obtain ⟨outcome, w₂⟩ := result
    cases outcome with
    | error f =>
      -- The copy has made no directory a file, so the path still leads to the target.
      have hlocate' : w₂.locate p = .ok l :=
        World.locate_mono hend.2 (fun q hq => hend.1.directory hnode hq) hlocate
      refine Or.inl ⟨f, _, runIn_bind_ok (runIn_removeFile hlocate' hend.1.node?_self), ?_, hend.2⟩
      exact hend.1.remove hl fun q hp hq => hw.node?_below hnode hp hq
    | ok _ =>
      refine Or.inr ⟨octets, w₂, rfl, hend, fun hs => ?_⟩
      obtain ⟨hown, hapart⟩ := octets_emptied s w.files hl
      have hfuel : (s.octets (w.files.set l (.file []))).length < s.size w + 1 := by
        rw [s.size_eq]
        by_cases hfrom : s.ReadsFrom l
        · simp [hown hfrom]
        · simp [hapart hfrom]
      obtain ⟨hdone, hunbroken⟩ := copyStream_ok hl hs hfuel hown hempty hcopy
      refine ⟨?_, hunbroken⟩
      have hnodes := hend.1.node?_self.symm.trans hdone.1.node?_self
      simpa using hnodes

end Cli

end ModBuild
