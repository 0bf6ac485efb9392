import ModBuild.Proofs.Files.Resolved

/-!
# Where paths lead

A path from the top leads to one *place*, whatever the files are: its names with the double
dots taken back (`World.locate_place`).  What is on the way to the place is told by the names
alone too.

A relative path that never goes up past its start, and does not end there, leads below
whatever it starts from (`Path.LeadsBelow.place`).
-/

namespace ModBuild

/-! ## Double dots -/

theorem withoutDots_append (before : Location) (names more : List String) :
    withoutDots before (names ++ more) = withoutDots (withoutDots before names) more := by
  induction names generalizing before with
  | nil => rfl
  | cons s ss ih => exact ih _

theorem withoutDots_straight {names : List String} (h : ".." ∉ names) (before : Location) :
    withoutDots before names = before ++ names := by
  induction names generalizing before with
  | nil => exact (List.append_nil before).symm
  | cons s ss ih =>
    have hs : s ≠ ".." := fun he => h (he ▸ List.mem_cons_self)
    rw [withoutDots, if_neg hs, ih fun hm => h (List.mem_cons_of_mem s hm), List.append_assoc,
      List.singleton_append]

/-- A walk that comes to an end comes to where the names lead. -/
theorem FileTree.walk_eq_withoutDots {t : FileTree} {base m : Location} {names : List String}
    (h : t.walk base names = .ok m) : m = withoutDots base names := by
  induction names generalizing base with
  | nil =>
    cases h
    rfl
  | cons s ss ih =>
    rw [walk] at h
    split at h
    · cases h
    · cases h
    · exact ih h

/-- Whether names never go up past their start, which lies so far below a place. -/
def staysBelow : (depth : Nat) → List String → Bool
  | _, [] => true
  | depth, s :: ss =>
    if s = ".." then depth != 0 && staysBelow (depth - 1) ss else staysBelow (depth + 1) ss

theorem staysBelow_of_prefix {names more : List String} {depth : Nat} (hp : names <+: more)
    (h : staysBelow depth more = true) : staysBelow depth names = true := by
  induction more generalizing names depth with
  | nil =>
    rw [List.prefix_nil.1 hp]
    rfl
  | cons s ss ih =>
    cases names with
    | nil => rfl
    | cons s' ss' =>
      obtain ⟨rfl, htail⟩ := List.cons_prefix_cons.1 hp
      rw [staysBelow] at h ⊢
      split
      · next hs =>
        rw [if_pos hs, Bool.and_eq_true] at h
        rw [Bool.and_eq_true]
        exact ⟨h.1, ih htail h.2⟩
      · next hs =>
        rw [if_neg hs] at h
        exact ih htail h

/-- Names that never go up past a place have no part in what leads to it. -/
theorem withoutDots_append_of_staysBelow {names : List String} {below : Location}
    (h : staysBelow below.length names = true) (base : Location) :
    withoutDots (base ++ below) names = base ++ withoutDots below names := by
  induction names generalizing below with
  | nil => rfl
  | cons s ss ih =>
    rw [staysBelow] at h
    rw [withoutDots, withoutDots]
    split
    · next hs =>
      rw [if_pos hs, Bool.and_eq_true, bne_iff_ne] at h
      have hne : below ≠ [] := fun he => h.1 (by rw [he]; rfl)
      rw [List.dropLast_append_of_ne_nil hne]
      exact ih (by rw [List.length_dropLast]; exact h.2)
    · next hs =>
      rw [if_neg hs] at h
      rw [List.append_assoc]
      exact ih (by rw [List.length_append]; exact h)

theorem withoutDots_of_staysBelow {names : List String} (h : staysBelow 0 names = true)
    (base : Location) : withoutDots base names = base ++ withoutDots [] names := by
  have hbelow := @withoutDots_append_of_staysBelow names [] h base
  rwa [List.append_nil] at hbelow

/-! ## Places -/

namespace Path

/-- The place that a path from the top leads to. -/
def place (p : Path) : Location :=
  withoutDots [] p.segments

/-- A place is on the way along a path from the top, or at its end. -/
def Passes (p : Path) (q : Location) : Prop :=
  ∃ names, names <+: p.segments ∧ q = withoutDots [] names

/-- A relative path leads below where it starts, and never goes up past that. -/
def LeadsBelow (p : Path) : Prop :=
  p.root = .relative ∧ staysBelow 0 p.segments = true ∧ p.place ≠ []

instance (p : Path) : Decidable p.LeadsBelow :=
  inferInstanceAs (Decidable (_ ∧ _))

theorem div_root_ne {base : Path} (h : base.root ≠ .relative) (p : Path) :
    (base / p : Path).root ≠ .relative := by
  change (join base p).root ≠ .relative
  unfold join
  split
  · exact h
  · next hroot => exact hroot

namespace LeadsBelow

variable {p base : Path} {q : Location}

theorem segments_div (h : p.LeadsBelow) (base : Path) :
    (base / p : Path).segments = base.segments ++ p.segments := by
  change (join base p).segments = _
  rw [join, h.1]

/-- The place is found from that of the start. -/
theorem place_div (h : p.LeadsBelow) (hbase : base.IsResolved) :
    (base / p : Path).place = base.segments ++ p.place := by
  rw [place, h.segments_div, withoutDots_append, withoutDots_straight hbase.2, List.nil_append]
  exact withoutDots_of_staysBelow h.2.1 base.segments

/-- What is on the way is on the way to the start, or lies at it or below it. -/
theorem of_passes (h : p.LeadsBelow) (hbase : base.IsResolved) (hq : (base / p : Path).Passes q) :
    q <+: base.segments ∨ base.segments <+: q := by
  obtain ⟨names, hnames, rfl⟩ := hq
  rw [h.segments_div] at hnames
  rcases List.prefix_or_prefix_of_prefix hnames (List.prefix_append _ _) with hp | hp
  · rw [withoutDots_straight fun hm => hbase.2 (hp.subset hm)]
    exact Or.inl hp
  · obtain ⟨more, rfl⟩ := hp
    have hmore : staysBelow 0 more = true :=
      staysBelow_of_prefix ((List.prefix_append_right_inj _).1 hnames) h.2.1
    rw [withoutDots_append, withoutDots_straight hbase.2, List.nil_append,
      withoutDots_of_staysBelow hmore]
    exact Or.inr (List.prefix_append _ _)

end LeadsBelow

end Path

namespace World

variable {w : World} {p : Path} {l : Location}

/-- A path from the top leads to its place. -/
theorem locate_place (hroot : p.root ≠ .relative) (h : w.locate p = .ok l) : l = p.place := by
  have hwalk := FileTree.walk_eq_withoutDots (locate_eq_ok_iff_walk.1 h).2
  rwa [start_eq_nil hroot] at hwalk

/-- A directory that was made on the way along a path is on the way to its place. -/
theorem IsNewOn.passes {v : World} {q : Location} (hroot : p.root ≠ .relative)
    (h : w.IsNewOn p v q) : p.Passes q := by
  obtain ⟨-, -, names, hnames, hlocate⟩ := h
  exact ⟨names, hnames, locate_place (p := ⟨p.root, names⟩) hroot hlocate⟩

end World

/-! ## Writing to places -/

namespace FileTree

/-- Files were written at the ends of some paths, directories were made on the way to them,
and nothing else changed. -/
def WrittenTo (t : FileTree) (ps : List Path) (t' : FileTree) : Prop :=
  ∀ q, t'.node? q = t.node? q ∨
    (t.node? q = none ∧ t'.node? q = some .directory ∧ ∃ p ∈ ps, p.Passes q) ∨
    t.node? q ≠ some .directory ∧ (∃ o, t'.node? q = some (.file o)) ∧ ∃ p ∈ ps, q = p.place

namespace WrittenTo

variable {t t₁ t₂ : FileTree} {ps ps' : List Path} {p : Path} {q : Location}

theorem refl (t : FileTree) (ps : List Path) : t.WrittenTo ps t :=
  fun _ => Or.inl rfl

theorem mono (h : t.WrittenTo ps t₁) (hps : ps ⊆ ps') : t.WrittenTo ps' t₁ := by
  intro q
  rcases h q with he | ⟨hnone, hd, p, hp, hq⟩ | ⟨hn, ho, p, hp, hq⟩
  · exact Or.inl he
  · exact Or.inr (Or.inl ⟨hnone, hd, p, hps hp, hq⟩)
  · exact Or.inr (Or.inr ⟨hn, ho, p, hps hp, hq⟩)

/-- A directory that was made is neither made again nor written over, and a file that was
written can only be written again. -/
theorem trans (h : t.WrittenTo ps t₁) (h' : t₁.WrittenTo ps t₂) : t.WrittenTo ps t₂ := by
  intro q
  rcases h' q with he | ⟨hnone, hd, hq⟩ | ⟨hn, ho, hq⟩
  · rw [he]
    exact h q
  · rcases h q with he | ⟨-, hd', -⟩ | ⟨-, ⟨o, ho⟩, -⟩
    · exact Or.inr (Or.inl ⟨he ▸ hnone, hd, hq⟩)
    · rw [hd'] at hnone
      cases hnone
    · rw [ho] at hnone
      cases hnone
  · rcases h q with he | ⟨-, hd, -⟩ | ⟨hn', -, -⟩
    · exact Or.inr (Or.inr ⟨he ▸ hn, ho, hq⟩)
    · exact absurd hd hn
    · exact Or.inr (Or.inr ⟨hn', ho, hq⟩)

theorem set {o : List UInt8} (hn : t.node? p.place ≠ some .directory) (hp : p ∈ ps) :
    t.WrittenTo ps (t.set p.place (.file o)) := by
  intro q
  rw [node?_set _ _ _ _ (ne_nil_of_node? hn)]
  split
  · next hq => exact Or.inr (Or.inr ⟨hq ▸ hn, ⟨o, rfl⟩, p, hp, hq⟩)
  · exact Or.inl rfl

/-- Directories stay. -/
theorem directory (h : t.WrittenTo ps t₁) (hq : t.node? q = some .directory) :
    t₁.node? q = some .directory := by
  rcases h q with he | ⟨hnone, -⟩ | ⟨hn, -⟩
  · rw [he, hq]
  · rw [hnone] at hq
    cases hq
  · exact absurd hq hn

/-- A file stays a file. -/
theorem file (h : t.WrittenTo ps t₁) {o : List UInt8} (hq : t.node? q = some (.file o)) :
    ∃ o', t₁.node? q = some (.file o') := by
  rcases h q with he | ⟨hnone, -⟩ | ⟨-, ho, -⟩
  · exact ⟨o, he.trans hq⟩
  · rw [hnone] at hq
    cases hq
  · exact ho

/-- Files at other places are as they were. -/
theorem octets?_eq (h : t.WrittenTo ps t₁) (hq : ∀ p ∈ ps, p.place ≠ q) :
    t₁.octets? q = t.octets? q := by
  rcases h q with he | ⟨hnone, hd, -⟩ | ⟨-, -, p, hp, he⟩
  · rw [octets?, he]
    rfl
  · rw [octets?, octets?, hnone, hd]
  · exact absurd he.symm (hq p hp)

end WrittenTo

end FileTree

/-- Whatever changed is strictly below a location, unless it is a directory that was made at
the location or on the way to it. -/
def FileTree.ChangedBelow (t : FileTree) (base : Location) (t' : FileTree) : Prop :=
  ∀ q, t'.node? q ≠ t.node? q →
    (base <+: q ∧ q ≠ base) ∨
      q <+: base ∧ t.node? q = none ∧ t'.node? q = some .directory

/-- What is written to paths that lead below a location changes nothing elsewhere. -/
theorem FileTree.WrittenTo.changedBelow {t t' : FileTree} {base : Path} {ps : List Path}
    (h : t.WrittenTo (ps.map (base / ·)) t') (hbase : base.IsResolved)
    (hps : ∀ p ∈ ps, p.LeadsBelow) : t.ChangedBelow base.segments t' := by
  intro q hq
  rcases h q with he | ⟨hnone, hd, _, hmem, hpasses⟩ | ⟨-, -, _, hmem, rfl⟩
  · exact absurd he hq
  · obtain ⟨p, hp, rfl⟩ := List.mem_map.1 hmem
    by_cases he : q = base.segments
    · exact Or.inr ⟨he ▸ List.prefix_refl _, hnone, hd⟩
    · rcases (hps p hp).of_passes hbase hpasses with hto | hbelow
      · exact Or.inr ⟨hto, hnone, hd⟩
      · exact Or.inl ⟨hbelow, he⟩
  · obtain ⟨p, hp, rfl⟩ := List.mem_map.1 hmem
    rw [(hps p hp).place_div hbase]
    exact Or.inl ⟨List.prefix_append _ _, by simpa using (hps p hp).2.2⟩

/-- To pave the path to where a path lies is on the way to its place. -/
theorem World.Paved.writtenTo {w v : World} {p : Path} (hroot : p.root ≠ .relative)
    (h : w.Paved p.parent v) : w.files.WrittenTo [p] v.files := by
  intro q
  refine (h.same_or_new q).imp_right fun hnew => Or.inl ⟨hnew.1, hnew.2.1, p, by simp, ?_⟩
  obtain ⟨names, hnames, rfl⟩ := hnew.passes (p := p.parent) hroot
  exact ⟨names, hnames.trans (List.dropLast_prefix _), rfl⟩

/-- What can be read can still be read, though it may have been written over. -/
theorem World.Holds.writtenTo {w v : World} {p : Path} {o : List UInt8} {ps : List Path}
    (h : w.Holds p o) (hstage : v.stage = w.stage) (hv : w.files.WrittenTo ps v.files) :
    ∃ o', v.Holds p o' := by
  obtain ⟨o', ho'⟩ := hv.file h.file
  exact ⟨o', h.isResolved, World.locate_mono hstage (fun _ => hv.directory) h.locate, ho'⟩

end ModBuild
