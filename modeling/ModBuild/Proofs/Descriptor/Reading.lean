import ModBuild.Proofs.Descriptor.Library

/-!
# What is read off a document

Each part of a document is read exactly if it has its form, and what is read is
what it stands for.  For every part there are two statements.  One says which
value the reader gives (`ofValue_eq_ok_iff` and its like), the other that there is
such a value exactly if the part has its form (`exists_describes_iff` and its
like).  Together they make `Descriptor.ofValue_iff_form`.
-/

namespace ModBuild

open Document

/-! ## Dependencies -/

theorem Dependency.ofEntry_eq_ok_iff {e : Key × Value} {d : Dependency} :
    Dependency.ofEntry e = .ok d ↔ Dependency.Describes e d := by
  obtain ⟨key, value⟩ := e
  cases key with
  | text id =>
    cases value with
    | text versions =>
      simp only [ofEntry, Describes, Except.ok.injEq, Key.text.injEq, Value.text.injEq,
        reduceCtorEq, false_and, exists_false, or_false]
      constructor
      · rintro rfl
        exact ⟨rfl, rfl⟩
      · intro h
        obtain ⟨rfl, rfl⟩ := h
        rfl
    | map es =>
      simp only [ofEntry, Describes, bind_eq_ok_iff, Section.ofValue_eq_ok_iff,
        Section.text_eq_ok_iff, pure_eq_ok_iff, Key.text.injEq, Value.map.injEq, reduceCtorEq,
        false_or]
      constructor
      · intro h
        obtain ⟨s, hs, versions, hv, rfl⟩ := h
        exact ⟨rfl, s, hs, hv⟩
      · intro h
        obtain ⟨rfl, s, hs, hv⟩ := h
        exact ⟨s, hs, d.versions, hv, rfl⟩
    | _ =>
      simp [ofEntry, Describes, bind_eq_ok_iff, Section.ofValue_eq_ok_iff]
  | _ => simp [ofEntry, Describes]

theorem Dependency.exists_describes_iff (e : Key × Value) :
    (∃ d, Dependency.Describes e d) ↔ Dependency.Form e := by
  constructor
  · intro h
    obtain ⟨d, hid, hv | ⟨s, hs, hv⟩⟩ := h
    · exact ⟨⟨_, hid⟩, Or.inl ⟨_, hv⟩⟩
    · exact ⟨⟨_, hid⟩, Or.inr ⟨s, hs, _, hv⟩⟩
  · intro h
    obtain ⟨⟨id, hid⟩, ⟨versions, hv⟩ | ⟨s, hs, versions, hv⟩⟩ := h
    · exact ⟨⟨id, versions⟩, hid, Or.inl hv⟩
    · exact ⟨⟨id, versions⟩, hid, Or.inr ⟨s, hs, hv⟩⟩

theorem Dependency.ofEntries_eq_ok_iff {es : Section} {ds : List Dependency} :
    Dependency.ofEntries es = .ok ds ↔ List.Forall₂ Dependency.Describes es ds := by
  induction es generalizing ds with
  | nil => cases ds <;> simp [ofEntries]
  | cons e es ih =>
    simp only [ofEntries, bind_eq_ok_iff, ofEntry_eq_ok_iff, ih, pure_eq_ok_iff]
    constructor
    · intro hx
      obtain ⟨d, hd, ds, hds, rfl⟩ := hx
      exact .cons hd hds
    · intro h
      cases h with
      | cons hd hds => exact ⟨_, hd, _, hds, rfl⟩

/-! ## Sections -/

theorem Mod.ofSection_eq_ok_iff {s : Section} {m : Mod} :
    Mod.ofSection s = .ok m ↔ Mod.Describes s m := by
  simp only [ofSection, bind_eq_ok_iff, Section.require_eq_ok_iff, Section.ofValue_eq_ok_iff,
    Dependency.ofEntries_eq_ok_iff, Library.allOf_eq_ok_iff, Section.text_eq_ok_iff,
    pure_eq_ok_iff]
  constructor
  · intro h
    obtain ⟨v, hv, es, rfl, ds, hds, ls, hls, pkg, h₁, className, h₂, name, h₃, id, h₄,
      version, h₅, rfl⟩ := h
    exact ⟨h₁, h₂, h₃, h₄, h₅, ⟨es, hv, hds⟩, hls⟩
  · intro h
    obtain ⟨h₁, h₂, h₃, h₄, h₅, ⟨es, hv, hds⟩, hls⟩ := h
    exact ⟨_, hv, es, rfl, _, hds, _, hls, _, h₁, _, h₂, _, h₃, _, h₄, _, h₅, rfl⟩

theorem Mod.exists_describes_iff (s : Section) : (∃ m, Mod.Describes s m) ↔ Mod.Form s := by
  have hdeps := exists_forall₂_iff Dependency.exists_describes_iff
  have hlibs := exists_forall₂_iff Library.exists_describedBy_iff
  constructor
  · intro h
    obtain ⟨m, h₁, h₂, h₃, h₄, h₅, ⟨es, he, hds⟩, hls⟩ := h
    refine ⟨?_, ⟨es, he, (hdeps es).1 ⟨_, hds⟩⟩, ?_⟩
    · simp only [List.forall_mem_cons, List.not_mem_nil, false_imp_iff, forall_true_iff, and_true]
      exact ⟨⟨_, h₁⟩, ⟨_, h₂⟩, ⟨_, h₃⟩, ⟨_, h₄⟩, ⟨_, h₅⟩⟩
    · rcases hls with ⟨hl, -⟩ | ⟨vs, hl, hls⟩
      · exact Or.inl hl
      · exact Or.inr ⟨vs, hl, (hlibs vs).1 ⟨_, hls⟩⟩
  · intro h
    obtain ⟨ht, ⟨es, he, hes⟩, hl⟩ := h
    simp only [List.forall_mem_cons, List.not_mem_nil, false_imp_iff, forall_true_iff,
      and_true] at ht
    obtain ⟨⟨pkg, h₁⟩, ⟨className, h₂⟩, ⟨name, h₃⟩, ⟨id, h₄⟩, ⟨version, h₅⟩⟩ := ht
    obtain ⟨ds, hds⟩ := (hdeps es).2 hes
    rcases hl with hl | ⟨vs, hl, hvs⟩
    · exact ⟨⟨pkg, className, name, id, version, ds, []⟩, h₁, h₂, h₃, h₄, h₅, ⟨es, he, hds⟩,
        Or.inl ⟨hl, rfl⟩⟩
    · obtain ⟨ls, hls⟩ := (hlibs vs).2 hvs
      exact ⟨⟨pkg, className, name, id, version, ds, ls⟩, h₁, h₂, h₃, h₄, h₅, ⟨es, he, hds⟩,
        Or.inr ⟨vs, hl, hls⟩⟩

theorem Core.ofSection_eq_ok_iff {s : Section} {c : Core} :
    Core.ofSection s = .ok c ↔ Core.Describes s c := by
  simp only [ofSection, bind_eq_ok_iff, Section.text_eq_ok_iff, Section.optionalText_eq_ok_iff,
    pure_eq_ok_iff]
  constructor
  · intro h
    obtain ⟨version, hv, path, hp, rfl⟩ := h
    exact ⟨hv, hp⟩
  · intro h
    obtain ⟨hv, hp⟩ := h
    exact ⟨_, hv, _, hp, rfl⟩

theorem Core.exists_describes_iff (s : Section) : (∃ c, Core.Describes s c) ↔ Core.Form s := by
  constructor
  · intro h
    obtain ⟨c, hv, hp⟩ := h
    exact ⟨⟨_, hv⟩, Section.exists_hasOptional_iff.1 ⟨_, hp⟩⟩
  · intro h
    obtain ⟨⟨version, hv⟩, hp⟩ := h
    obtain ⟨path, hp⟩ := Section.exists_hasOptional_iff.2 hp
    exact ⟨⟨version, path⟩, hv, hp⟩

theorem Integration.ofSection_eq_ok_iff {s : Section} {i : Integration} :
    Integration.ofSection s = .ok i ↔ Integration.Describes s i := by
  simp only [ofSection, bind_eq_ok_iff, Section.text_eq_ok_iff, pure_eq_ok_iff]
  constructor
  · intro h
    obtain ⟨repository, h₁, branch, h₂, path, h₃, rfl⟩ := h
    exact ⟨h₁, h₂, h₃⟩
  · intro h
    obtain ⟨h₁, h₂, h₃⟩ := h
    exact ⟨_, h₁, _, h₂, _, h₃, rfl⟩

theorem Integration.exists_describes_iff (s : Section) :
    (∃ i, Integration.Describes s i) ↔ Integration.Form s := by
  simp only [Integration.Form, List.forall_mem_cons, List.not_mem_nil, false_imp_iff,
    forall_true_iff, and_true]
  constructor
  · intro h
    obtain ⟨i, h₁, h₂, h₃⟩ := h
    exact ⟨⟨_, h₁⟩, ⟨_, h₂⟩, ⟨_, h₃⟩⟩
  · intro h
    obtain ⟨⟨repository, h₁⟩, ⟨branch, h₂⟩, ⟨path, h₃⟩⟩ := h
    exact ⟨⟨repository, branch, path⟩, h₁, h₂, h₃⟩

theorem Integration.of?_eq_ok_iff {s : Section} {o : Option Integration} :
    Integration.of? s = .ok o ↔
      (s.get? "integration" = none ∧ o = none) ∨
        ∃ (i : Section) (j : Integration), s.get? "integration" = some (.map i) ∧
          Integration.Describes i j ∧ o = some j := by
  unfold of?
  cases h : s.get? "integration" with
  | none => simp [eq_comm]
  | some v =>
    simp only [bind_eq_ok_iff, Section.ofValue_eq_ok_iff, ofSection_eq_ok_iff, pure_eq_ok_iff,
      reduceCtorEq, false_and, false_or, Option.some.injEq]
    constructor
    · intro hx
      obtain ⟨i, rfl, j, hj, rfl⟩ := hx
      exact ⟨i, j, rfl, hj, rfl⟩
    · intro hx
      obtain ⟨i, j, rfl, hj, rfl⟩ := hx
      exact ⟨i, rfl, j, hj, rfl⟩

/-! ## Documents -/

theorem Descriptor.ofValue_eq_ok_iff {v : Value} {d : Descriptor} :
    Descriptor.ofValue v = .ok d ↔ Descriptor.Describes v d := by
  simp only [ofValue, bind_eq_ok_iff, Section.ofValue_eq_ok_iff, Section.require_eq_ok_iff,
    Mod.ofSection_eq_ok_iff, Core.ofSection_eq_ok_iff, Integration.of?_eq_ok_iff, pure_eq_ok_iff]
  constructor
  · intro h
    obtain ⟨s, hs, _, hm, mod, rfl, m, hmod, _, hc, core, rfl, c, hcore, i, hi, rfl⟩ := h
    exact ⟨s, mod, core, hs, hm, hmod, hc, hcore, hi⟩
  · intro h
    obtain ⟨s, mod, core, hs, hm, hmod, hc, hcore, hi⟩ := h
    exact ⟨s, hs, _, hm, mod, rfl, _, hmod, _, hc, core, rfl, _, hcore, _, hi, rfl⟩

theorem Descriptor.exists_describes_iff (v : Value) :
    (∃ d, Descriptor.Describes v d) ↔ Descriptor.Form v := by
  constructor
  · intro h
    obtain ⟨d, s, mod, core, hs, hm, hmod, hc, hcore, hi⟩ := h
    refine ⟨s, mod, core, hs, hm, (Mod.exists_describes_iff mod).1 ⟨_, hmod⟩, hc,
      (Core.exists_describes_iff core).1 ⟨_, hcore⟩, ?_⟩
    rcases hi with ⟨hi, -⟩ | ⟨i, j, hi, hj, -⟩
    · exact Or.inl hi
    · exact Or.inr ⟨i, hi, (Integration.exists_describes_iff i).1 ⟨j, hj⟩⟩
  · intro h
    obtain ⟨s, mod, core, hs, hm, hmod, hc, hcore, hi⟩ := h
    obtain ⟨m, hmod⟩ := (Mod.exists_describes_iff mod).2 hmod
    obtain ⟨c, hcore⟩ := (Core.exists_describes_iff core).2 hcore
    rcases hi with hi | ⟨i, hi, hform⟩
    · exact ⟨⟨m, c, none⟩, s, mod, core, hs, hm, hmod, hc, hcore, Or.inl ⟨hi, rfl⟩⟩
    · obtain ⟨j, hj⟩ := (Integration.exists_describes_iff i).2 hform
      exact ⟨⟨m, c, some j⟩, s, mod, core, hs, hm, hmod, hc, hcore, Or.inr ⟨i, j, hi, hj, rfl⟩⟩

/-- A document is read exactly if it has the form of a descriptor, and the
descriptor that is read is the one that it stands for. -/
theorem Descriptor.ofValue_iff_form (v : Value) :
    ((∃ d, Descriptor.ofValue v = .ok d) ↔ Descriptor.Form v) ∧
      ∀ d, Descriptor.ofValue v = .ok d ↔ Descriptor.Describes v d := by
  constructor
  · simp only [Descriptor.ofValue_eq_ok_iff]
    exact Descriptor.exists_describes_iff v
  · intro d
    exact Descriptor.ofValue_eq_ok_iff

end ModBuild
