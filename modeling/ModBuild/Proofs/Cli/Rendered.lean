import ModBuild.Proofs.Cli.Templates

/-!
# What rendering leaves

The files after some templates were rendered are told by the templates and the
files before (`Rendered`).  A target holds the rendition of the last template that
has it as its target, any other file is as it was, and the directories on the way
to the targets were added.  Nothing else can be left (`Rendered.node?_eq`).

Templates stay as they are if no target lies at the template directory, above it
or below it (`Rendered.holds`).  Then one template more is rendered on top of those
before it (`Rendered.append`).
-/

namespace ModBuild.Cli

variable (r : Resolution) (delimited : Bool) (directory output : Path)

/-! ## Targets -/

/-- The location that a template is rendered to. -/
def targetLocation (l : Location) : Location :=
  (targetOf r delimited output l).segments

/-- The target of a template has no double dots and lies neither at the template
directory nor above or below it. -/
def IsApart (l : Location) : Prop :=
  ".." ∉ targetLocation r delimited output l ∧
    ¬ targetLocation r delimited output l <+: directory.segments ∧
    ¬ directory.segments <+: targetLocation r delimited output l

instance (l : Location) : Decidable (IsApart r delimited directory output l) :=
  inferInstanceAs (Decidable (_ ∧ _ ∧ _))

/-- The report on a template that cannot be rendered. -/
def cannotRender (l : Location) (cause : OsError) : Report :=
  .failed ("cannot render '" ++ templateName l ++ "' to '" ++
    (targetOf r delimited output l).toString ++ "': " ++ cause.message)

/-! ## What rendering leaves -/

/-- The files after some templates were rendered one after the other. -/
structure Rendered (t t' : FileTree) (ls : List Location) : Prop where
  /-- A target holds what the last of its templates is rendered to. -/
  target : ∀ before l after octets, ls = before ++ l :: after →
    (∀ m ∈ after, targetLocation r delimited output m ≠ targetLocation r delimited output l) →
    t.octets? (directory.segments ++ l) = some octets →
    t'.octets? (targetLocation r delimited output l) =
      some (rendition r.table.entries delimited octets)
  /-- Any other file is as it was. -/
  other : ∀ q, (∀ l ∈ ls, targetLocation r delimited output l ≠ q) → t'.octets? q = t.octets? q
  /-- The directories on the way to the targets were added. -/
  directory : ∀ q, (∀ l ∈ ls, targetLocation r delimited output l ≠ q) →
    (t'.node? q = some .directory ↔
      t.node? q = some .directory ∨ ∃ l ∈ ls, q <+: targetLocation r delimited output l)

/-- The files after templates were rendered up to one that cannot be written.  At
most directories on the way to its target were added. -/
def Stopped (t t' : FileTree) (ls : List Location) (l : Location) : Prop :=
  ∃ before after t₁, ls = before ++ l :: after ∧
    Rendered r delimited directory output t t₁ before ∧
    t₁.Grown (targetLocation r delimited output l).dropLast t'

variable {r delimited directory output}

theorem targetOf_isResolved (ho : output.IsResolved) {l : Location}
    (hdots : ".." ∉ targetLocation r delimited output l) :
    (targetOf r delimited output l).IsResolved := by
  refine ⟨?_, hdots⟩
  change (Path.join output _).root ≠ .relative
  unfold Path.join
  split
  · exact ho.1
  · next hroot => exact hroot

/-- Of the items that have a value, one is the last. -/
theorem exists_last {α β : Type} {f : α → β} {b : β} {as : List α} (h : ∃ a ∈ as, f a = b) :
    ∃ before a after, as = before ++ a :: after ∧ f a = b ∧ ∀ c ∈ after, f c ≠ b := by
  induction as with
  | nil =>
    obtain ⟨a, ha, -⟩ := h
    cases ha
  | cons d ds ih =>
    by_cases hlater : ∃ a ∈ ds, f a = b
    · obtain ⟨before, a, after, rfl, ha, hafter⟩ := ih hlater
      exact ⟨d :: before, a, after, rfl, ha, hafter⟩
    · obtain ⟨a, ha, he⟩ := h
      rcases List.mem_cons.1 ha with rfl | ha
      · exact ⟨[], a, ds, rfl, he, fun c hc hcb => hlater ⟨c, hc, hcb⟩⟩
      · exact absurd ⟨a, ha, he⟩ hlater

namespace Rendered

variable {t t₁ t₂ : FileTree} {pre ls : List Location} {l : Location}

theorem nil (t : FileTree) : Rendered r delimited directory output t t [] where
  target := by
    intro before l after octets he
    cases before <;> cases he
  other := fun _ _ => rfl
  directory := by simp

/-- The last template writes over those before it. -/
theorem append {octets : List UInt8} (h : Rendered r delimited directory output t t₁ pre)
    (hg : t₁.Grown (targetLocation r delimited output l).dropLast t₂)
    (hd : t₂.DirectoriesTo (targetLocation r delimited output l))
    (hn : t₂.node? (targetLocation r delimited output l) ≠ some .directory)
    (ho : t.octets? (directory.segments ++ l) = some octets) :
    Rendered r delimited directory output t
      (t₂.set (targetLocation r delimited output l)
        (.file (rendition r.table.entries delimited octets))) (pre ++ [l]) := by
  have htop : targetLocation r delimited output l ≠ [] := by
    intro he
    rw [he, FileTree.node?_nil] at hn
    exact hn rfl
  refine ⟨fun before m after o he hafter hm => ?_, fun q hq => ?_, fun q hq => ?_⟩
  · cases after using List.reverseRecOn with
    | nil =>
      obtain ⟨-, hlm⟩ := List.append_inj' he rfl
      cases hlm
      rw [ho] at hm
      cases hm
      rw [FileTree.octets?_eq_some_iff, FileTree.node?_set _ _ _ _ htop, if_pos rfl]
    | append_singleton after k =>
      rw [← List.cons_append, ← List.append_assoc] at he
      obtain ⟨hpre, hk⟩ := List.append_inj' he rfl
      cases hk
      rw [FileTree.octets?_set_of_ne htop (hafter l (by simp)), hg.octets?_eq]
      exact h.target before m after o hpre (fun k hk => hafter k (by simp [hk])) hm
  · rw [FileTree.octets?_set_of_ne htop (hq l (by simp)), hg.octets?_eq]
    exact h.other q fun m hm => hq m (by simp [hm])
  · have hne : targetLocation r delimited output l ≠ q := hq l (by simp)
    have hstep : t₂.node? q = some .directory ↔
        t₁.node? q = some .directory ∨ q <+: targetLocation r delimited output l := by
      constructor
      · intro hq₂
        rcases hg q with he | ⟨-, -, hp⟩
        · exact Or.inl (he ▸ hq₂)
        · exact Or.inr (hp.trans (List.dropLast_prefix _))
      · intro hx
        rcases hx with hq₁ | hp
        · exact hg.node?_eq hq₁
        · exact hd q hp hne.symm
    rw [FileTree.node?_set _ _ _ _ htop, if_neg hne.symm, hstep,
      h.directory q fun m hm => hq m (by simp [hm])]
    simp [or_and_right, exists_or, or_assoc]

/-- What is left is determined by the templates and the files before. -/
theorem node?_eq (h₁ : Rendered r delimited directory output t t₁ ls)
    (h₂ : Rendered r delimited directory output t t₂ ls)
    (hfile : ∀ l ∈ ls, ∃ o, t.octets? (directory.segments ++ l) = some o) (q : Location) :
    t₁.node? q = t₂.node? q := by
  by_cases hq : ∃ l ∈ ls, targetLocation r delimited output l = q
  · obtain ⟨before, m, after, rfl, rfl, hafter⟩ := exists_last hq
    obtain ⟨o, ho⟩ := hfile m (by simp)
    rw [FileTree.octets?_eq_some_iff.1 (h₁.target before m after o rfl hafter ho),
      FileTree.octets?_eq_some_iff.1 (h₂.target before m after o rfl hafter ho)]
  · have hother : ∀ l ∈ ls, targetLocation r delimited output l ≠ q :=
      fun l hl he => hq ⟨l, hl, he⟩
    have hoctets : t₁.octets? q = t₂.octets? q :=
      (h₁.other q hother).trans (h₂.other q hother).symm
    have hdirectory : t₁.node? q = some .directory ↔ t₂.node? q = some .directory :=
      (h₁.directory q hother).trans (h₂.directory q hother).symm
    exact FileTree.node?_eq_of_octets?_eq hoctets hdirectory

/-- Every template is as it was, and it can still be read. -/
theorem holds {w v : World} (hw : w.Sound) (hd : directory.IsResolved)
    (h : Rendered r delimited directory output w.files v.files pre)
    (hpre : ∀ m ∈ pre, IsApart r delimited directory output m) {octets : List UInt8}
    (ho : w.files.octets? (directory.segments ++ l) = some octets) :
    v.Holds (directory / ⟨.relative, l⟩) octets := by
  have hnode := FileTree.octets?_eq_some_iff.1 ho
  have hto : w.files.DirectoriesTo (directory.segments ++ l) :=
    hw.files.directoriesTo (by rw [hnode]; rfl)
  have hother (q : Location) (hq : q <+: directory.segments ++ l) :
      ∀ m ∈ pre, targetLocation r delimited output m ≠ q := by
    rintro m hm rfl
    obtain ⟨-, habove, hbelow⟩ := hpre m hm
    rcases List.prefix_or_prefix_of_prefix hq (List.prefix_append _ _) with hp | hp
    · exact habove hp
    · exact hbelow hp
  have hresolved : (directory / ⟨.relative, l⟩ : Path).IsResolved :=
    ⟨hd.1, hw.files.not_mem_dots hnode⟩
  refine ⟨hresolved, (World.locate_eq_ok_iff hresolved).2 ⟨?_, rfl, ?_⟩, ?_⟩
  · exact hw.files.hasNull_eq_false hnode
  · intro q hq hne
    exact (h.directory q (hother q hq)).2 (Or.inl (hto q hq hne))
  · rw [← FileTree.octets?_eq_some_iff]
    exact (h.other _ (hother _ (List.prefix_refl _))).trans ho

end Rendered

end ModBuild.Cli
