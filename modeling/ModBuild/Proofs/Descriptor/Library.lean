import ModBuild.Proofs.Descriptor.Section

/-!
# Reading libraries

The type of a library is given or follows from the presence of a path, and the
place that it names must be of that type (`Library.originOf_eq_ok_iff`).  An entry
is read exactly if it has its form (`Library.exists_describedBy_iff`).
-/

namespace ModBuild

open Document

theorem Library.relocationOf_eq_ok_iff {place : Place} {s : Section} {o : Option Relocation} :
    Library.relocationOf place s = .ok o ↔
      (s.Lacks "relocate" ∧ o = none) ∨
        ∃ rule left right, s.Has "relocate" rule ∧ Relocation.IsRule rule left right ∧
          o = some ⟨Text.trimmed left, Text.trimmed right⟩ := by
  rw [relocationOf, bind_eq_ok_iff]
  simp only [Section.optionalText_eq_ok_iff]
  constructor
  · intro h
    obtain ⟨_, ⟨hl, rfl⟩ | ⟨rule, hr, rfl⟩, ho⟩ := h
    · exact Or.inl ⟨hl, (pure_eq_ok_iff.1 ho).symm⟩
    · cases hp : Relocation.parse? rule with
      | none =>
        simp only [hp] at ho
        cases ho
      | some r =>
        simp only [hp] at ho
        obtain ⟨left, right, hrule, rfl⟩ := (Relocation.parse?_eq_some_iff _ _).1 hp
        exact Or.inr ⟨rule, left, right, hr, hrule, (pure_eq_ok_iff.1 ho).symm⟩
  · intro h
    rcases h with ⟨hl, rfl⟩ | ⟨rule, left, right, hr, hrule, rfl⟩
    · exact ⟨none, Or.inl ⟨hl, rfl⟩, rfl⟩
    · refine ⟨some rule, Or.inr ⟨rule, hr, rfl⟩, ?_⟩
      have hp := (Relocation.parse?_eq_some_iff rule _).2 ⟨left, right, hrule, rfl⟩
      simp only [hp]
      rfl

theorem allTexts?_eq_some_iff {vs : List Value} {names : List String} :
    allTexts? vs = some names ↔ vs = names.map .text := by
  induction vs generalizing names with
  | nil => cases names <;> simp [allTexts?]
  | cons v vs ih =>
    cases v with
    | text t =>
      simp only [allTexts?, Option.map_eq_map, Option.map_eq_some_iff, ih]
      cases names <;> simp
      exact and_comm
    | _ => cases names <;> simp [allTexts?]

theorem Library.onlyInOf_eq_ok_iff {place : Place} {s : Section} {names : List String} :
    Library.onlyInOf place s = .ok names ↔
      (s.get? "onlyIn" = none ∧ names = []) ∨
        s.get? "onlyIn" = some (.list (names.map .text)) := by
  unfold onlyInOf
  cases h : s.get? "onlyIn" with
  | none => simp [eq_comm]
  | some v =>
    cases hv : v.items?.bind allTexts? with
    | none =>
      simp only [hv, reduceCtorEq, false_and, Option.some.injEq, false_or, false_iff]
      rintro rfl
      rw [Value.items?, Option.bind_some, allTexts?_eq_some_iff.2 rfl] at hv
      cases hv
    | some found =>
      simp only [hv, reduceCtorEq, false_and, Option.some.injEq, false_or, Except.ok.injEq]
      cases v with
      | list vs =>
        have hvs : vs = found.map .text := allTexts?_eq_some_iff.1 hv
        rw [hvs, Value.list.injEq]
        constructor
        · rintro rfl
          rfl
        · intro he
          exact List.map_injective_iff.2 (fun _ _ h => Value.text.inj h) he
      | _ => cases hv

/-- The repository type that is read is the one of the entry. -/
theorem Library.typeOf_eq {s : Section} {o : Option String} (h : s.HasOptional "repositoryType" o) :
    o.getD (if (s.get? "path").isSome then "File" else "URL") = Library.typeOf s := by
  rcases h with ⟨h | h, rfl⟩ | ⟨t, h, rfl⟩
  · simp [typeOf, h]
  · simp [typeOf, h]
  · have h : s.get? "repositoryType" = some (.text t) := h
    simp [typeOf, h]

theorem Library.originOf_eq_ok_iff {place : Place} {s : Section} {o : Origin} :
    Library.originOf place s = .ok o ↔
      (s.Lacks "repositoryType" ∨ s.HasText "repositoryType") ∧ o.Describes s := by
  rw [← Section.exists_hasOptional_iff, originOf]
  simp only [bind_eq_ok_iff, Section.optionalText_eq_ok_iff]
  rw [exists_and_right.symm]
  refine exists_congr fun given => and_congr_right fun hgiven => ?_
  rw [Library.typeOf_eq hgiven]
  by_cases hmem : Library.typeOf s ∈ repositoryTypes
  · rw [if_neg (not_not_intro hmem)]
    by_cases hfile : Library.typeOf s = "File"
    · rw [if_pos hfile]
      cases hr : s.get? "repository" with
      | none =>
        rw [if_neg (by simp), bind_eq_ok_iff]
        simp only [Section.text_eq_ok_iff, pure_eq_ok_iff]
        cases o <;> simp [Origin.Describes, hfile, hr]
      | some v =>
        rw [if_pos (by simp)]
        cases o <;> simp [Origin.Describes, hfile, hr]
    · rw [if_neg hfile]
      cases hp : s.get? "path" with
      | some v =>
        rw [if_pos (by simp)]
        cases o <;> simp [Origin.Describes, hfile, hp]
      | none =>
        rw [if_neg (by simp), bind_eq_ok_iff]
        simp only [Section.text_eq_ok_iff, pure_eq_ok_iff]
        simp only [repositoryTypes, List.mem_cons, List.not_mem_nil, or_false, hfile] at hmem
        rcases hmem with hurl | hdir
        · cases o <;> simp [Origin.Describes, hurl, hp]
        · cases o <;> simp [Origin.Describes, hdir, hp]
  · rw [if_pos hmem]
    simp only [repositoryTypes, List.mem_cons, List.not_mem_nil, or_false, not_or] at hmem
    cases o <;> simp [Origin.Describes, hmem]

theorem Library.ofValue_eq_ok_iff {index : Nat} {v : Value} {l : Library} :
    Library.ofValue index v = .ok l ↔ Library.DescribedBy v l := by
  simp only [ofValue, bind_eq_ok_iff, Section.ofValue_eq_ok_iff, Section.text_eq_ok_iff,
    relocationOf_eq_ok_iff, onlyInOf_eq_ok_iff, originOf_eq_ok_iff, pure_eq_ok_iff]
  constructor
  · intro h
    obtain ⟨s, hs, artifact, ha, declaration, hd, relocation, hr, onlyIn, hi, origin,
      ⟨ht, ho⟩, rfl⟩ := h
    exact ⟨s, hs, ha, hd, hr, hi, ht, ho⟩
  · intro h
    obtain ⟨s, hs, ha, hd, hr, hi, ht, ho⟩ := h
    exact ⟨s, hs, _, ha, _, hd, _, hr, _, hi, _, ⟨ht, ho⟩, rfl⟩

theorem Library.ofValues_eq_ok_iff {index : Nat} {vs : List Value} {ls : List Library} :
    Library.ofValues index vs = .ok ls ↔ List.Forall₂ Library.DescribedBy vs ls := by
  induction vs generalizing index ls with
  | nil => cases ls <;> simp [ofValues]
  | cons v vs ih =>
    simp only [ofValues, bind_eq_ok_iff, ofValue_eq_ok_iff, ih, pure_eq_ok_iff]
    constructor
    · intro hx
      obtain ⟨l, hl, ls, hls, rfl⟩ := hx
      exact .cons hl hls
    · intro h
      cases h with
      | cons hl hls => exact ⟨_, hl, _, hls, rfl⟩

theorem Library.allOf_eq_ok_iff {s : Section} {ls : List Library} :
    Library.allOf s = .ok ls ↔
      (s.get? "libraries" = none ∧ ls = []) ∨
        ∃ vs, s.get? "libraries" = some (.list vs) ∧
          List.Forall₂ Library.DescribedBy vs ls := by
  unfold allOf
  cases h : s.get? "libraries" with
  | none => simp [eq_comm]
  | some v =>
    cases v with
    | list vs => simp [Value.items?, ofValues_eq_ok_iff]
    | _ => simp [Value.items?]

/-- An origin is described exactly if the entry names one place, and that of its
type. -/
theorem Origin.exists_describes_iff (s : Section) :
    (∃ o : Origin, o.Describes s) ↔
      Library.typeOf s ∈ repositoryTypes ∧
        (Library.typeOf s = "File" → s.HasText "path" ∧ s.get? "repository" = none) ∧
        (Library.typeOf s ≠ "File" → s.HasText "repository" ∧ s.get? "path" = none) := by
  simp only [repositoryTypes, List.mem_cons, List.not_mem_nil, or_false]
  constructor
  · intro hx
    obtain ⟨o, ho⟩ := hx
    cases o with
    | maven r =>
      obtain ⟨ht, hr, hp⟩ := ho
      exact ⟨Or.inl ht, fun h => absurd (ht.symm.trans h) (by decide), fun _ => ⟨⟨r, hr⟩, hp⟩⟩
    | flatDir r =>
      obtain ⟨ht, hr, hp⟩ := ho
      exact ⟨Or.inr (Or.inl ht), fun h => absurd (ht.symm.trans h) (by decide),
        fun _ => ⟨⟨r, hr⟩, hp⟩⟩
    | file p =>
      obtain ⟨ht, hp, hr⟩ := ho
      exact ⟨Or.inr (Or.inr ht), fun _ => ⟨⟨p, hp⟩, hr⟩, fun h => absurd ht h⟩
  · intro hx
    obtain ⟨ht | ht | ht, hfile, hother⟩ := hx
    · obtain ⟨⟨r, hr⟩, hp⟩ := hother (by rw [ht]; decide)
      exact ⟨.maven r, ht, hr, hp⟩
    · obtain ⟨⟨r, hr⟩, hp⟩ := hother (by rw [ht]; decide)
      exact ⟨.flatDir r, ht, hr, hp⟩
    · obtain ⟨⟨p, hp⟩, hr⟩ := hfile ht
      exact ⟨.file p, ht, hp, hr⟩

/-- The type of an entry that gives none is one of the known ones. -/
theorem Library.typeOf_of_lacks {s : Section} (h : s.Lacks "repositoryType") :
    Library.typeOf s ∈ repositoryTypes := by
  rw [← Library.typeOf_eq (Or.inl ⟨h, rfl⟩), Option.getD_none]
  split <;> decide

theorem Library.typeOf_of_has {s : Section} {type : String} (h : s.Has "repositoryType" type) :
    Library.typeOf s = type :=
  (Library.typeOf_eq (Or.inr ⟨type, h, rfl⟩)).symm

/-! ## Entries that can be read -/

theorem Library.exists_relocation_iff (s : Section) :
    (∃ o : Option Relocation, (s.Lacks "relocate" ∧ o = none) ∨
        ∃ rule left right, s.Has "relocate" rule ∧ Relocation.IsRule rule left right ∧
          o = some ⟨Text.trimmed left, Text.trimmed right⟩) ↔
      s.Lacks "relocate" ∨
        ∃ rule, s.Has "relocate" rule ∧ ∃ left right, Relocation.IsRule rule left right := by
  constructor
  · intro hx
    obtain ⟨o, ⟨h, -⟩ | ⟨rule, left, right, h, hrule, -⟩⟩ := hx
    · exact Or.inl h
    · exact Or.inr ⟨rule, h, left, right, hrule⟩
  · intro hx
    rcases hx with h | ⟨rule, h, left, right, hrule⟩
    · exact ⟨none, Or.inl ⟨h, rfl⟩⟩
    · exact ⟨_, Or.inr ⟨rule, left, right, h, hrule, rfl⟩⟩

theorem Library.exists_onlyIn_iff (s : Section) :
    (∃ names : List String, (s.get? "onlyIn" = none ∧ names = []) ∨
        s.get? "onlyIn" = some (.list (names.map .text))) ↔
      s.get? "onlyIn" = none ∨
        ∃ names : List String, s.get? "onlyIn" = some (.list (names.map .text)) := by
  constructor
  · intro hx
    obtain ⟨names, ⟨h, -⟩ | h⟩ := hx
    · exact Or.inl h
    · exact Or.inr ⟨names, h⟩
  · intro hx
    rcases hx with h | ⟨names, h⟩
    · exact ⟨[], Or.inl ⟨h, rfl⟩⟩
    · exact ⟨names, Or.inr h⟩

/-- A field that gives a known type is absent, null or one of the known types. -/
theorem Library.typeOf_mem_iff (s : Section) :
    (Library.typeOf s ∈ repositoryTypes ∧
        (s.Lacks "repositoryType" ∨ s.HasText "repositoryType")) ↔
      s.Lacks "repositoryType" ∨ s.Has "repositoryType" "URL" ∨
        s.Has "repositoryType" "Dir" ∨ s.Has "repositoryType" "File" := by
  constructor
  · intro hx
    obtain ⟨hmem, h | ⟨type, h⟩⟩ := hx
    · exact Or.inl h
    · rw [typeOf_of_has h] at hmem
      simp only [repositoryTypes, List.mem_cons, List.not_mem_nil, or_false] at hmem
      rcases hmem with rfl | rfl | rfl
      · exact Or.inr (Or.inl h)
      · exact Or.inr (Or.inr (Or.inl h))
      · exact Or.inr (Or.inr (Or.inr h))
  · intro hx
    rcases hx with h | h | h | h
    · exact ⟨typeOf_of_lacks h, Or.inl h⟩
    · exact ⟨by rw [typeOf_of_has h]; decide, Or.inr ⟨_, h⟩⟩
    · exact ⟨by rw [typeOf_of_has h]; decide, Or.inr ⟨_, h⟩⟩
    · exact ⟨by rw [typeOf_of_has h]; decide, Or.inr ⟨_, h⟩⟩

theorem Library.exists_describedBy_iff (v : Value) :
    (∃ l, Library.DescribedBy v l) ↔ ∃ s : Section, v = .map s ∧ Library.Form s := by
  constructor
  · intro h
    obtain ⟨l, s, hs, ha, hd, hr, hi, ht, ho⟩ := h
    obtain ⟨hmem, hfile, hother⟩ := (Origin.exists_describes_iff s).1 ⟨l.origin, ho⟩
    exact ⟨s, hs, ⟨_, ha⟩, ⟨_, hd⟩, (exists_relocation_iff s).1 ⟨_, hr⟩,
      (exists_onlyIn_iff s).1 ⟨_, hi⟩, (typeOf_mem_iff s).1 ⟨hmem, ht⟩, hfile, hother⟩
  · intro h
    obtain ⟨s, hs, ⟨artifact, ha⟩, ⟨type, hd⟩, hr, hi, ht, hfile, hother⟩ := h
    obtain ⟨relocation, hr⟩ := (exists_relocation_iff s).2 hr
    obtain ⟨onlyIn, hi⟩ := (exists_onlyIn_iff s).2 hi
    obtain ⟨hmem, ht⟩ := (typeOf_mem_iff s).2 ht
    obtain ⟨origin, ho⟩ := (Origin.exists_describes_iff s).2 ⟨hmem, hfile, hother⟩
    exact ⟨⟨artifact, type, relocation, onlyIn, origin⟩, s, hs, ha, hd, hr, hi, ht, ho⟩

end ModBuild
