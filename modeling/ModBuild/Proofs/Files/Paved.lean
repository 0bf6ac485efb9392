import ModBuild.Proofs.Files.Access

/-!
# Paved paths

To make a directory with all that it lies in is to pave the path to it: the
directories on the way are there afterwards, and nothing else has changed
(`ensureDirectories_paved`).  Everything still lies in directories
(`ensureDirectories_rooted`).  A path that goes up again can lead back to a directory
that was made on its own way, and no other path can (`Paved.node?_straight`).
-/

namespace ModBuild

/-! ## Directories on the way -/

namespace FileTree

/-- Some directories were made on the way to a location or at its end, and nothing
else changed. -/
def Grown (l : Location) (t t' : FileTree) : Prop :=
  ∀ q, t'.node? q = t.node? q ∨
    (t.node? q = none ∧ t'.node? q = some .directory ∧ q <+: l)

namespace Grown

variable {l : Location} {t t' : FileTree}

/-- What is there stays there. -/
theorem node?_eq (h : Grown l t t') {q : Location} {n : Node} (hq : t.node? q = some n) :
    t'.node? q = some n := by
  rcases h q with he | ⟨hnone, -, -⟩
  · rw [he, hq]
  · rw [hnone] at hq
    cases hq

/-- Files stay as they are. -/
theorem octets?_eq (h : Grown l t t') (q : Location) : t'.octets? q = t.octets? q := by
  rcases h q with he | ⟨hnone, hd, -⟩
  · rw [octets?, he]
    rfl
  · rw [octets?, octets?, hnone, hd]

end Grown

end FileTree

/-! ## Paved paths -/

namespace World

/-- A directory that was made on the way along a path. -/
def IsNewOn (p : Path) (w v : World) (q : Location) : Prop :=
  w.files.node? q = none ∧ v.files.node? q = some .directory ∧
    ∃ names, names <+: p.segments ∧ v.locate ⟨p.root, names⟩ = .ok q

/-- Some directories were made on the way along a path, and nothing else changed. -/
structure Paved (p : Path) (w v : World) : Prop where
  stage : v.stage = w.stage
  same_or_new : ∀ q, v.files.node? q = w.files.node? q ∨ IsNewOn p w v q

theorem start_congr {w v : World} (hstage : v.stage = w.stage) (p : Path) :
    v.start p = w.start p := by
  have hhere : v.here = w.here := congrArg Stage.here hstage
  rw [start, start, hhere]

/-- A path leads to where it did if the directories are still there. -/
theorem locate_mono {w v : World} (hstage : v.stage = w.stage)
    (hd : ∀ q, w.files.node? q = some .directory → v.files.node? q = some .directory)
    {p : Path} {l : Location} (h : w.locate p = .ok l) : v.locate p = .ok l := by
  rw [locate_eq_ok_iff_walk] at h ⊢
  rw [start_congr hstage]
  exact ⟨h.1, FileTree.walk_mono hd h.2⟩

theorem locate_congr {w v : World} (hfiles : v.files = w.files) (hstage : v.stage = w.stage)
    {p : Path} {l : Location} (h : w.locate p = .ok l) : v.locate p = .ok l :=
  locate_mono hstage (fun _ hq => hfiles ▸ hq) h

theorem node?_congr {w v : World} (hfiles : v.files = w.files) (hstage : v.stage = w.stage)
    (p : Path) : v.node? p = w.node? p := by
  rw [node?, node?, locate, locate, start_congr hstage, hfiles]

namespace Paved

variable {p : Path} {w v : World}

theorem refl (p : Path) (w : World) : w.Paved p w := ⟨rfl, fun _ => Or.inl rfl⟩

/-- What is there stays there. -/
theorem node?_eq (h : w.Paved p v) {q : Location} {n : Node} (hq : w.files.node? q = some n) :
    v.files.node? q = some n := by
  rcases h.same_or_new q with he | ⟨hnone, -, -⟩
  · rw [he, hq]
  · rw [hnone] at hq
    cases hq

/-- One more directory on the way. -/
theorem set (h : w.Paved p v) {names : List String} (hnames : names <+: p.segments)
    {m : Location} (hm : v.locate ⟨p.root, names⟩ = .ok m) (hnone : v.files.node? m = none) :
    w.Paved p { v with files := v.files.set m .directory } := by
  have hne : m ≠ [] := FileTree.ne_nil_of_node? (by rw [hnone]; nofun)
  have hlocate {p' : Path} {l : Location} (hl : v.locate p' = .ok l) :
      World.locate { v with files := v.files.set m .directory } p' = .ok l := by
    refine locate_mono (w := v) ?_ ?_ hl
    · rfl
    · exact fun q hq => FileTree.node?_set_directory hne hq
  refine ⟨h.stage, fun q => ?_⟩
  by_cases hq : q = m
  · subst hq
    have hbefore : w.files.node? q = none := by
      rcases h.same_or_new q with he | ⟨hnone', -, -⟩
      · rw [← he, hnone]
      · exact hnone'
    refine Or.inr ⟨hbefore, ?_, names, hnames, hlocate hm⟩
    rw [FileTree.node?_set _ _ _ _ hne, if_pos rfl]
  · have hother : (v.files.set m .directory).node? q = v.files.node? q := by
      rw [FileTree.node?_set _ _ _ _ hne, if_neg hq]
    rcases h.same_or_new q with he | ⟨hbefore, hafter, names', hnames', hl⟩
    · exact Or.inl (hother.trans he)
    · exact Or.inr ⟨hbefore, FileTree.node?_set_directory hne hafter, names', hnames',
        hlocate hl⟩

/-- The way along a resolved path is its own names. -/
theorem grown (h : w.Paved p v) (hp : p.IsResolved) : w.files.Grown p.segments v.files := by
  intro q
  rcases h.same_or_new q with he | ⟨hnone, hd, names, hnames, hl⟩
  · exact Or.inl he
  · obtain ⟨-, rfl, -⟩ := (locate_eq_ok_iff (hp.initial hnames)).1 hl
    exact Or.inr ⟨hnone, hd, hnames⟩

/-- Only the files and the stage count. -/
theorem congr {w' : World} (h : w.Paved p v) (hfiles : w.files = w'.files)
    (hstage : w.stage = w'.stage) : w'.Paved p v := by
  refine ⟨h.stage.trans hstage, fun q => ?_⟩
  rw [← hfiles]
  exact (h.same_or_new q).imp_right fun hnew => ⟨hfiles ▸ hnew.1, hnew.2⟩

/-- The directories that were made stay if only a file changes. -/
theorem onlyAt {v' : World} (h : w.Paved p v) {l : Location} {n : Option Node}
    (hl : v.files.node? l ≠ some .directory) (hv : v.files.OnlyAt l n v'.files)
    (hstage : v'.stage = v.stage) {q : Location} (hq : q ≠ l) :
    v'.files.node? q = w.files.node? q ∨ IsNewOn p w v' q := by
  rw [hv.node?_of_ne hq]
  refine (h.same_or_new q).imp_right ?_
  rintro ⟨hnone, hdirectory, names, hnames, hlocate⟩
  exact ⟨hnone, (hv.node?_of_ne hq).trans hdirectory, names, hnames,
    locate_mono hstage (fun _ => hv.directory hl) hlocate⟩

end Paved

/-- Everything lies in directories, and the working directory is there. -/
structure Rooted (w : World) : Prop where
  directoriesTo : ∀ q, (w.files.node? q).isSome → w.files.DirectoriesTo q
  here : w.files.node? w.here = some .directory

namespace Rooted

variable {w v : World} {p : Path}

theorem congr (h : w.Rooted) (hfiles : v.files = w.files) (hstage : v.stage = w.stage) :
    v.Rooted := by
  have hhere : v.here = w.here := congrArg Stage.here hstage
  exact ⟨by rw [hfiles]; exact h.directoriesTo, by rw [hfiles, hhere]; exact h.here⟩

theorem start (h : w.Rooted) (p : Path) : w.files.node? (w.start p) = some .directory := by
  unfold World.start
  cases p.root with
  | relative => exact h.here
  | slash => exact FileTree.node?_nil _
  | doubleSlash => exact FileTree.node?_nil _

/-- A path leads to something that lies in directories, or could. -/
theorem locate (h : w.Rooted) {l : Location} (hl : w.locate p = .ok l) :
    w.files.DirectoriesTo l := by
  have hstart : w.files.DirectoriesTo (w.start p) :=
    h.directoriesTo _ (by rw [h.start p]; rfl)
  exact FileTree.walk_directoriesTo hstart (locate_eq_ok_iff_walk.1 hl).2

/-- Nothing lies in what is no directory. -/
theorem node?_below (h : w.Rooted) {l q : Location} (hl : w.files.node? l ≠ some .directory)
    (hq : l <+: q) (hne : q ≠ l) : w.files.node? q = none := by
  cases hn : w.files.node? q with
  | none => rfl
  | some n => exact absurd (h.directoriesTo q (by rw [hn]; rfl) l hq hne.symm) hl

theorem setDirectory (h : w.Rooted) {m : Location} (hm : w.files.DirectoriesTo m)
    (hnone : w.files.node? m = none) :
    Rooted { w with files := w.files.set m .directory } := by
  have hne : m ≠ [] := FileTree.ne_nil_of_node? (by rw [hnone]; nofun)
  refine ⟨fun q hq r hr hrq => FileTree.node?_set_directory hne ?_,
    FileTree.node?_set_directory hne h.here⟩
  by_cases he : q = m
  · subst he
    exact hm r hr hrq
  · dsimp only at hq
    rw [FileTree.node?_set _ _ _ _ hne, if_neg he] at hq
    exact h.directoriesTo q hq r hr hrq

/-- A path without double dots leads to whatever its names lead to. -/
theorem locate_straight (h : w.Rooted) (hp : ".." ∉ p.segments) (hnull : p.hasNull = false)
    (hn : (w.files.node? (w.start p ++ p.segments)).isSome) :
    w.locate p = .ok (w.start p ++ p.segments) := by
  refine (locate_straight_iff hp).2 ⟨hnull, rfl, fun q hq hne => ?_⟩
  refine h.directoriesTo _ hn _ ((List.prefix_append_right_inj _).2 hq) fun he => hne ?_
  exact List.append_cancel_left he

end Rooted

namespace Paved

variable {p : Path} {w v : World}

/-- No initial part of a path without double dots leads to the same as the whole path, other
than to where it starts. -/
theorem same_straight (h : w.Paved p.parent v) (hw : w.Rooted) (hp : ".." ∉ p.segments) :
    v.files.node? (w.start p ++ p.segments) = w.files.node? (w.start p ++ p.segments) := by
  refine (h.same_or_new _).resolve_right ?_
  rintro ⟨hnone, -, names, hnames, hlocate⟩
  have hinitial : names <+: p.segments := hnames.trans (List.dropLast_prefix _)
  obtain ⟨-, he, -⟩ := (locate_straight_iff fun hm => hp (hinitial.subset hm)).1 hlocate
  rw [start_congr h.stage] at he
  have hall : p.segments = names := List.append_cancel_left he
  have hnil : p.segments = [] := by
    have hle : names.length ≤ p.segments.dropLast.length := hnames.length_le
    rw [← hall, List.length_dropLast] at hle
    exact List.length_eq_zero_iff.1 (by omega)
  rw [hnil, List.append_nil, hw.start p] at hnone
  cases hnone

/-- What a path without double dots leads to is not changed by paving the path to where it
lies. -/
theorem node?_straight (h : w.Paved p.parent v) (hw : w.Rooted) (hp : ".." ∉ p.segments) :
    v.node? p = w.node? p := by
  rw [node?, node?]
  cases hv : v.locate p with
  | ok l =>
    obtain ⟨hnull, hl, -⟩ := (locate_straight_iff hp).1 hv
    rw [start_congr h.stage] at hl
    dsimp only
    rw [hl, h.same_straight hw hp]
    cases hlocate : w.locate p with
    | ok l' => rw [((locate_straight_iff hp).1 hlocate).2.1]
    | error f =>
      cases hn : w.files.node? (w.start p ++ p.segments) with
      | none => rfl
      | some n =>
        rw [hw.locate_straight hp hnull (by rw [hn]; rfl)] at hlocate
        cases hlocate
  | error f =>
    cases hlocate : w.locate p with
    | error f' => rfl
    | ok l =>
      rw [locate_mono h.stage (fun _ => h.node?_eq) hlocate] at hv
      cases hv

end Paved

end World

namespace Action

theorem makeDirectory_paved {p : Path} {names : List String} (hnames : names <+: p.segments)
    (w : World) : Preserves (w.Paved p) (makeDirectory ⟨p.root, names⟩) := by
  intro v hv
  rcases makeDirectory_cases ⟨p.root, names⟩ v with ⟨f, hr⟩ | ⟨m, hm, hn, hr⟩
  · rw [hr]
    exact hv
  · rw [hr]
    exact hv.set hnames hm hn

theorem makeDirectory_rooted (p : Path) : Preserves World.Rooted (makeDirectory p) := by
  intro w hw
  rcases makeDirectory_cases p w with ⟨f, hr⟩ | ⟨m, hm, hn, hr⟩
  · rw [hr]
    exact hw
  · rw [hr]
    exact hw.setDirectory (hw.locate hm) hn

/-- Directories are made on the way along a path only, also if that fails. -/
theorem ensureDirectories_paved (p : Path) (w : World) :
    w.Paved p ((ensureDirectories p).runIn w).2 :=
  ensureDirectories_preserves (fun _ hq => makeDirectory_paved hq w) w (.refl p w)

theorem ensureDirectories_rooted (p : Path) : Preserves World.Rooted (ensureDirectories p) :=
  ensureDirectories_preserves fun _ _ => makeDirectory_rooted _

end Action

end ModBuild
