import Mathlib.Data.List.Induction
import ModBuild.Files.Tree

/-!
# File trees that can be

A tree that can be on a disk is well formed: no location is listed twice,
everything lies in a directory, and names hold no slash and are no dots.  In such
a tree whatever is there can be walked to (`WellFormed.directoriesTo`), and the
files below a directory are listed once each (`mem_filesBelow_iff`,
`nodup_filesBelow`).
-/

namespace ModBuild

open Document

/-- A text that can be the name of something in a directory. -/
def IsName (s : String) : Prop :=
  s ≠ "" ∧ s ≠ "." ∧ s ≠ ".." ∧ '/' ∉ s.toList ∧ '\x00' ∉ s.toList

instance (s : String) : Decidable (IsName s) :=
  inferInstanceAs (Decidable (_ ∧ _))

namespace FileTree

/-- A tree that can be on a disk. -/
structure WellFormed (t : FileTree) : Prop where
  /-- No location is listed twice. -/
  nodup : (t.entries.map (·.1)).Nodup
  /-- Everything lies in a directory. -/
  parent : ∀ e ∈ t.entries, t.node? e.1.dropLast = some .directory
  /-- Everything has a name, and so has every directory that it lies in. -/
  isName : ∀ e ∈ t.entries, ∀ s ∈ e.1, IsName s

/-- The directories that a location lies in are all there. -/
def DirectoriesTo (t : FileTree) (l : Location) : Prop :=
  ∀ q, q <+: l → q ≠ l → t.node? q = some .directory

/-- The octets of a file. -/
def octets? (t : FileTree) (l : Location) : Option (List UInt8) :=
  match t.node? l with
  | some (.file octets) => some octets
  | _ => none

theorem octets?_eq_some_iff {t : FileTree} {l : Location} {o : List UInt8} :
    t.octets? l = some o ↔ t.node? l = some (.file o) := by
  rw [octets?]
  split
  · next o' h => simp [h]
  · next h => simpa using h o

/-- Files and directories are all that there is. -/
theorem node?_eq_of_octets?_eq {t t' : FileTree} {q : Location}
    (ho : t.octets? q = t'.octets? q)
    (hd : t.node? q = some .directory ↔ t'.node? q = some .directory) :
    t.node? q = t'.node? q := by
  rw [octets?, octets?] at ho
  cases h : t.node? q with
  | none =>
    cases h' : t'.node? q with
    | none => rfl
    | some n => cases n <;> simp [h, h'] at ho hd
  | some n =>
    cases h' : t'.node? q with
    | none => cases n <;> simp [h, h'] at ho hd
    | some n' => cases n <;> cases n' <;> simp_all

theorem octets?_set_of_ne {t : FileTree} {l q : Location} {n : Node} (hl : l ≠ [])
    (h : l ≠ q) : (t.set l n).octets? q = t.octets? q := by
  rw [octets?, node?_set t l q n hl, if_neg h.symm]
  rfl

@[simp] theorem node?_nil (t : FileTree) : t.node? [] = some .directory := by
  simp [node?]

/-- The top is a directory. -/
theorem ne_nil_of_node? {t : FileTree} {l : Location} (h : t.node? l ≠ some .directory) :
    l ≠ [] := by
  rintro rfl
  exact h (node?_nil t)

theorem node?_set_directory {t : FileTree} {l q : Location} (hl : l ≠ [])
    (hq : t.node? q = some .directory) : (t.set l .directory).node? q = some .directory := by
  rw [node?_set _ _ _ _ hl, hq]
  exact ite_self _

/-! ## Walks -/

/-- A name more is a location more. -/
theorem prefix_append_singleton {α : Type} {q l : List α} {a : α} (h : q <+: l ++ [a])
    (hne : q ≠ l ++ [a]) : q <+: l := by
  obtain ⟨r, hr⟩ := h
  cases r using List.reverseRecOn with
  | nil => exact absurd (by simpa using hr) hne
  | append_singleton r b =>
    rw [← List.append_assoc] at hr
    exact ⟨r, (List.append_inj' hr rfl).1⟩

/-- A walk without double dots ends where its names say, if the directories on the
way are there. -/
theorem walk_eq_ok_iff {t : FileTree} {base m : Location} {names : List String}
    (h : ".." ∉ names) :
    t.walk base names = .ok m ↔
      m = base ++ names ∧
        ∀ q, q <+: names → q ≠ names → t.node? (base ++ q) = some .directory := by
  induction names generalizing base with
  | nil =>
    rw [walk, Except.ok.injEq, List.append_nil, eq_comm, iff_self_and]
    intro _ q hq hne
    exact absurd (List.prefix_nil.1 hq) hne
  | cons s ss ih =>
    have hs : ".." ≠ s := fun e => h (e ▸ List.mem_cons_self)
    have hss : ".." ∉ ss := fun hm => h (List.mem_cons_of_mem s hm)
    have hstep : (∀ q, q <+: s :: ss → q ≠ s :: ss → t.node? (base ++ q) = some .directory) ↔
        t.node? base = some .directory ∧
          ∀ q, q <+: ss → q ≠ ss → t.node? (base ++ [s] ++ q) = some .directory := by
      constructor
      · intro hq
        refine ⟨by simpa using hq [] List.nil_prefix (by simp), fun q hp hne => ?_⟩
        simpa using hq (s :: q) ((List.prefix_cons_inj s).2 hp) (by simpa using hne)
      · rintro ⟨hb, hq⟩ q hp hne
        cases q with
        | nil => simpa using hb
        | cons a q =>
          obtain ⟨rfl, hp'⟩ := List.cons_prefix_cons.1 hp
          simpa using hq q hp' (by simpa using hne)
    rw [hstep, walk]
    cases hb : t.node? base with
    | none => simp
    | some n =>
      cases n with
      | file o => simp
      | directory =>
        rw [if_neg (Ne.symm hs), ih hss, List.append_assoc, List.singleton_append]
        simp

/-- The last name of a walk leads on from a directory. -/
theorem walk_append_singleton_iff {t : FileTree} {base l : Location} {names : List String}
    {s : String} :
    t.walk base (names ++ [s]) = .ok l ↔
      ∃ m, t.walk base names = .ok m ∧ t.node? m = some .directory ∧
        l = if s = ".." then m.dropLast else m ++ [s] := by
  induction names generalizing base with
  | nil =>
    rw [List.nil_append, walk]
    cases hn : t.node? base with
    | none => simp [walk, hn]
    | some n => cases n <;> simp [walk, hn, eq_comm]
  | cons s' ss ih =>
    rw [List.cons_append, walk, walk]
    cases t.node? base with
    | none => simp
    | some n =>
      cases n with
      | file o => simp
      | directory => exact ih

theorem DirectoriesTo.of_prefix {t : FileTree} {l q : Location} (h : t.DirectoriesTo l)
    (hq : q <+: l) : t.DirectoriesTo q := by
  intro r hr hne
  refine h r (hr.trans hq) fun he => hne (hr.eq_of_length_le ?_)
  rw [he]
  exact hq.length_le

/-- A walk passes through directories only, so it ends in one or at something that lies
in one. -/
theorem walk_directoriesTo {t : FileTree} {base m : Location} {names : List String}
    (hbase : t.DirectoriesTo base) (h : t.walk base names = .ok m) : t.DirectoriesTo m := by
  induction names generalizing base with
  | nil =>
    cases h
    exact hbase
  | cons s ss ih =>
    rw [walk] at h
    split at h
    · cases h
    · cases h
    · next hdirectory =>
      refine ih ?_ h
      split
      · exact hbase.of_prefix (List.dropLast_prefix base)
      · intro q hq hne
        have hq : q <+: base := prefix_append_singleton hq hne
        by_cases he : q = base
        · rw [he, hdirectory]
        · exact hbase q hq he

/-- A walk ends where it did if the directories are still there. -/
theorem walk_mono {t t' : FileTree} {base m : Location} {names : List String}
    (hd : ∀ q, t.node? q = some .directory → t'.node? q = some .directory)
    (h : t.walk base names = .ok m) : t'.walk base names = .ok m := by
  induction names generalizing base with
  | nil => exact h
  | cons s ss ih =>
    rw [walk] at h ⊢
    split at h
    · cases h
    · cases h
    · next hdirectory =>
      rw [hd _ hdirectory]
      exact ih h

/-! ## Well-formed trees -/

/-- What is at a location other than the top is listed. -/
theorem mem_entries_of_node? {t : FileTree} {l : Location} {n : Node} (hl : l ≠ [])
    (h : t.node? l = some n) : (l, n) ∈ t.entries := by
  rw [node?, if_neg hl] at h
  exact Entries.mem_of_get? h

namespace WellFormed

variable {t : FileTree}

/-- Whatever is there lies in directories up to the top. -/
theorem directoriesTo (h : t.WellFormed) {l : Location} (hl : (t.node? l).isSome) :
    t.DirectoriesTo l := by
  induction l using List.reverseRecOn with
  | nil =>
    intro q hq hne
    exact absurd (List.prefix_nil.1 hq) hne
  | append_singleton l s ih =>
    obtain ⟨n, hn⟩ := Option.isSome_iff_exists.1 hl
    have hmem := mem_entries_of_node? (by simp) hn
    have hparent : t.node? l = some .directory := by simpa using h.parent _ hmem
    intro q hq hne
    have hq : q <+: l := prefix_append_singleton hq hne
    by_cases he : q = l
    · rw [he, hparent]
    · exact ih (by rw [hparent]; rfl) q hq he

theorem isName_of_node? (h : t.WellFormed) {l : Location} {n : Node} (hl : t.node? l = some n) :
    ∀ s ∈ l, IsName s := by
  by_cases hnil : l = []
  · simp [hnil]
  · exact h.isName _ (mem_entries_of_node? hnil hl)

theorem not_mem_dots (h : t.WellFormed) {l : Location} {n : Node} (hl : t.node? l = some n) :
    ".." ∉ l :=
  fun hm => (h.isName_of_node? hl _ hm).2.2.1 rfl

end WellFormed

/-! ## Changes at one location -/

/-- Something is at a location now, or nothing, and all the rest is as it was. -/
def OnlyAt (t : FileTree) (l : Location) (n : Option Node) (t' : FileTree) : Prop :=
  ∀ q, t'.node? q = if q = l then n else t.node? q

namespace OnlyAt

variable {t t' : FileTree} {l : Location} {n : Option Node}

theorem refl (t : FileTree) (l : Location) : t.OnlyAt l (t.node? l) t := by
  intro q
  split
  · next h => rw [h]
  · rfl

theorem node?_self (h : t.OnlyAt l n t') : t'.node? l = n :=
  (h l).trans (if_pos rfl)

theorem node?_of_ne (h : t.OnlyAt l n t') {q : Location} (hq : q ≠ l) : t'.node? q = t.node? q :=
  (h q).trans (if_neg hq)

theorem set (h : t.OnlyAt l n t') (hl : l ≠ []) (m : Node) : t.OnlyAt l (some m) (t'.set l m) := by
  intro q
  rw [node?_set _ _ _ _ hl]
  by_cases hq : q = l
  · rw [if_pos hq, if_pos hq]
  · rw [if_neg hq, if_neg hq, h.node?_of_ne hq]

/-- A removal takes away nothing else where nothing is below. -/
theorem remove (h : t.OnlyAt l n t') (hl : l ≠ [])
    (hbelow : ∀ q, l <+: q → q ≠ l → t.node? q = none) : t.OnlyAt l none (t'.remove l) := by
  intro q
  by_cases hnil : q = []
  · rw [hnil, node?_nil, node?_nil, if_neg (Ne.symm hl)]
  · rw [node?_remove _ _ _ hnil]
    by_cases hq : q = l
    · rw [if_pos hq, hq, if_pos (List.prefix_refl l)]
    · rw [if_neg hq, h.node?_of_ne hq]
      split
      · next hp => rw [hbelow q hp hq]
      · rfl

theorem directory (h : t.OnlyAt l n t') (hl : t.node? l ≠ some .directory) {q : Location}
    (hq : t.node? q = some .directory) : t'.node? q = some .directory := by
  rw [h.node?_of_ne, hq]
  rintro rfl
  exact hl hq

end OnlyAt

/-! ## The files below a directory -/

theorem mem_below_iff {t : FileTree} {l m : Location} {n : Node} :
    (m, n) ∈ t.below l ↔ m ≠ [] ∧ (l ++ m, n) ∈ t.entries := by
  rw [below, List.mem_filterMap]
  constructor
  · intro h
    obtain ⟨⟨q, n'⟩, hmem, he⟩ := h
    split at he
    · next hp =>
      obtain ⟨r, rfl⟩ := List.isPrefixOf_iff_prefix.1 hp.1
      cases he
      simpa using ⟨by simpa using hp.2, hmem⟩
    · cases he
  · intro h
    obtain ⟨hne, hmem⟩ := h
    exact ⟨_, hmem, by simp [hne]⟩

theorem mem_filesBelow_iff {t : FileTree} (hn : (t.entries.map (·.1)).Nodup) {l m : Location} :
    m ∈ t.filesBelow l ↔ m ≠ [] ∧ ∃ o, t.node? (l ++ m) = some (.file o) := by
  rw [filesBelow, List.mem_filterMap]
  constructor
  · intro h
    obtain ⟨⟨q, n⟩, hmem, he⟩ := h
    cases n with
    | directory => cases he
    | file o =>
      cases he
      obtain ⟨hne, hmem⟩ := mem_below_iff.1 hmem
      refine ⟨hne, o, ?_⟩
      rw [node?, if_neg (by simp [hne])]
      exact Entries.get?_of_mem hn hmem
  · intro h
    obtain ⟨hne, o, ho⟩ := h
    exact ⟨(m, .file o), mem_below_iff.2 ⟨hne, mem_entries_of_node? (by simp [hne]) ho⟩, rfl⟩

theorem nodup_filesBelow {t : FileTree} (hn : (t.entries.map (·.1)).Nodup) (l : Location) :
    (t.filesBelow l).Nodup := by
  rw [List.Nodup, filesBelow, below, List.pairwise_filterMap, List.pairwise_filterMap]
  rw [List.Nodup, List.pairwise_map] at hn
  refine hn.imp ?_
  rintro ⟨q, n⟩ ⟨q', n'⟩ hne ⟨b, m⟩ hb ⟨b', m'⟩ hb' c hc c' hc' he
  dsimp only at hne hb hb' hc hc'
  split at hb
  · next hp =>
    split at hb'
    · next hp' =>
      obtain ⟨r, rfl⟩ := List.isPrefixOf_iff_prefix.1 hp.1
      obtain ⟨r', rfl⟩ := List.isPrefixOf_iff_prefix.1 hp'.1
      cases hb
      cases hb'
      cases n <;> cases hc
      cases n' <;> cases hc'
      simp at he
      exact hne (by rw [he])
    · cases hb'
  · cases hb

end FileTree

end ModBuild
