import ModBuild.Proofs.Files.Emptied
import ModBuild.Proofs.Files.Paved

/-!
# Vacant paths

A path is vacant if something can be put there as into an empty directory.  If all of it is taken
away again, the files are as before but for a directory at the path (`RestoredUpTo`).  Then the
path is still vacant (`RestoredUpTo.vacant`).
-/

namespace ModBuild

namespace World

/-! ## Vacant paths -/

/-- A path that has a directory for its parent and at which nothing is, neither at its end nor
below, but perhaps an empty directory.  A path with the character U+0000 leads to nothing. -/
structure Vacant (w : World) (p : Path) : Prop where
  parent : w.isDirectory p.parent = true
  vacant : ∀ l, w.locate p = .ok l → w.files.Vacant l

/-- Where everything lies in directories, nothing is below what is absent. -/
theorem Rooted.vacant {w : World} {p : Path} (h : w.Rooted)
    (hparent : w.isDirectory p.parent = true)
    (hp : w.node? p = none ∨
      ∃ l, w.locate p = .ok l ∧ w.files.node? l = some .directory ∧ w.files.Bare l) :
    w.Vacant p := by
  refine ⟨hparent, fun l hl => ?_⟩
  rcases hp with hnone | ⟨l', hl', hdirectory, hbare⟩
  · have hnone : w.files.node? l = none := by
      rwa [node?, hl] at hnone
    exact ⟨Or.inl hnone, fun _ => h.node?_below (by simp [hnone])⟩
  · cases hl.symm.trans hl'
    exact ⟨Or.inr hdirectory, hbare⟩

theorem locate_of_hasNull {p : Path} (h : p.hasNull = true) (w : World) :
    w.locate p = .error .nullInPath := by
  rw [locate, if_pos h]

/-- A path with a directory for its parent leads somewhere, unless it holds U+0000. -/
theorem locate_of_parent {w : World} {p : Path} (h : w.isDirectory p.parent = true) :
    p.hasNull = true ∨ ∃ l, w.locate p = .ok l := by
  by_cases hnull : p.hasNull
  · exact Or.inl hnull
  · rw [isDirectory, beq_iff_eq, node?] at h
    split at h
    · next m hm =>
      obtain ⟨root, names⟩ := p
      cases names using List.reverseRecOn with
      | nil => exact Or.inr ⟨m, hm⟩
      | append_singleton names s =>
        rw [Path.parent, List.dropLast_concat] at hm
        have hs : '\x00' ∉ s.toList := by
          simp [Path.hasNull] at hnull
          exact hnull.2
        exact Or.inr ⟨_, locate_append_singleton_iff.2 ⟨hs, m, hm, h, rfl⟩⟩
    · cases h

theorem Vacant.congr {w v : World} {p : Path} (h : w.Vacant p) (hfiles : v.files = w.files)
    (hstage : v.stage = w.stage) : v.Vacant p := by
  refine ⟨?_, fun l hl => hfiles ▸ h.vacant l (locate_congr hfiles.symm hstage.symm hl)⟩
  rw [isDirectory, node?_congr hfiles hstage]
  exact h.parent

/-! ## Worlds that are restored -/

/-- The files are as before but for the directories that some paths lead to, of which some may be
new. -/
structure RestoredUpTo (w : World) (ps : List Path) (v : World) : Prop where
  stage : v.stage = w.stage
  same_or_new : ∀ q, v.files.node? q = w.files.node? q ∨
    w.files.node? q = none ∧ v.files.node? q = some .directory ∧ ∃ p ∈ ps, v.locate p = .ok q

namespace RestoredUpTo

variable {w v v' : World} {p : Path} {ps ps' : List Path}

theorem of_eq (ps : List Path) (hfiles : v.files = w.files) (hstage : v.stage = w.stage) :
    w.RestoredUpTo ps v :=
  ⟨hstage, fun q => Or.inl (by rw [hfiles])⟩

/-- What is there stays there. -/
theorem node?_eq (h : w.RestoredUpTo ps v) {q : Location} {n : Node}
    (hq : w.files.node? q = some n) : v.files.node? q = some n := by
  rcases h.same_or_new q with he | ⟨hnone, -⟩
  · rw [he, hq]
  · rw [hnone] at hq
    cases hq

theorem locate (h : w.RestoredUpTo ps v) {l : Location} (hl : w.locate p = .ok l) :
    v.locate p = .ok l :=
  locate_mono h.stage (fun _ => h.node?_eq) hl

theorem trans (h : w.RestoredUpTo ps v) (h' : v.RestoredUpTo ps' v') :
    w.RestoredUpTo (ps ++ ps') v' := by
  refine ⟨h'.stage.trans h.stage, fun q => ?_⟩
  rcases h.same_or_new q with he | ⟨hnone, hdirectory, p, hp, hl⟩
  · rw [← he]
    refine (h'.same_or_new q).imp_right ?_
    rintro ⟨hnone, hdirectory, p, hp, hl⟩
    exact ⟨hnone, hdirectory, p, List.mem_append_right ps hp, hl⟩
  · exact Or.inr ⟨hnone, h'.node?_eq hdirectory, p, List.mem_append_left ps' hp, h'.locate hl⟩

/-- The path itself stays vacant. -/
theorem vacant (h : w.RestoredUpTo [p] v) (hp : w.Vacant p) : v.Vacant p := by
  have hparent : v.isDirectory p.parent = true := by
    have hw := hp.parent
    rw [isDirectory, beq_iff_eq, World.node?] at hw ⊢
    split at hw
    · next m hm =>
      rw [h.locate hm]
      exact h.node?_eq hw
    · cases hw
  refine ⟨hparent, fun l hl => ?_⟩
  have hl' : w.locate p = .ok l := by
    rcases locate_of_parent hp.parent with hnull | ⟨m, hm⟩
    · rw [locate_of_hasNull hnull v] at hl
      cases hl
    · cases (h.locate hm).symm.trans hl
      exact hm
  obtain ⟨hnode, hbare⟩ := hp.vacant l hl'
  constructor
  · rcases h.same_or_new l with he | ⟨-, hdirectory, -⟩
    · rw [he]
      exact hnode
    · exact Or.inr hdirectory
  · intro q hq hne
    rcases h.same_or_new q with he | ⟨-, -, p', hp', hlq⟩
    · rw [he]
      exact hbare q hq hne
    · -- The only path leads to the location itself.
      cases List.mem_singleton.1 hp'
      cases hl.symm.trans hlq
      exact absurd rfl hne

end RestoredUpTo

end World

end ModBuild
