import ModBuild.Proofs.Text.Blank
import ModBuild.Proofs.Variables.Table
import ModBuild.Variables.Build

/-!
# When there is a table

A build makes seven checks in a fixed order (`checks`).  It fails with the error
of the first that does not hold, and has a table if all hold.  The names of the
table are then those of the schema in order, so the last step, which holds the
variables against the schema, cannot fail (`build_follows_checks`).
-/

namespace ModBuild.Variables

/-- A condition on a build, with the error for a build that does not meet it. -/
structure Check where
  /-- The condition. -/
  Holds : Prop
  /-- The error. -/
  error : BuildError

/-- A text that must not be blank. -/
def textCheck (name value : String) : Check :=
  ⟨Text.trimmed value ≠ "", .missingField name⟩

/-- A version that must start with an API version. -/
def versionCheck (version : String) : Check :=
  ⟨∃ api, ApiVersion.ofVersion? version = some api, .invalidVersion version⟩

/-- The conditions on a build in the order in which they are looked at. -/
def checks (m : Mod) (version : String) : List Check :=
  [textCheck "mod.package" m.pkg,
    textCheck "umc.version" version,
    versionCheck version,
    textCheck "mod.class" m.className,
    textCheck "mod.name" m.name,
    textCheck "mod.id" m.id,
    textCheck "mod.version" m.version]

/-- An error is that of the first condition that does not hold. -/
def FirstFailing (cs : List Check) (e : BuildError) : Prop :=
  ∃ before c behind, cs = before ++ c :: behind ∧ (∀ b ∈ before, b.Holds) ∧ ¬ c.Holds ∧
    c.error = e

/-- The name that a variable has in the older dialect. -/
def legacyName (name : String) : String :=
  if name = "SHADOW" then "MOD_DEPENDENCIES"
  else if name = "RELOCATE" then "RELOCATION"
  else name

/-! ## The first condition that does not hold -/

theorem not_firstFailing_nil (e : BuildError) : ¬ FirstFailing [] e := by
  intro hx
  obtain ⟨before, c, behind, h, -⟩ := hx
  cases before <;> cases h

theorem firstFailing_cons_of_not {c : Check} {cs : List Check} (hc : ¬ c.Holds)
    (e : BuildError) : FirstFailing (c :: cs) e ↔ c.error = e := by
  constructor
  · intro hx
    obtain ⟨before, c', behind, h, hb, hc', rfl⟩ := hx
    cases before with
    | nil => cases h; rfl
    | cons b bs => cases h; exact absurd (hb c (by simp)) hc
  · intro he
    exact ⟨[], c, cs, rfl, by simp, hc, he⟩

theorem firstFailing_cons_of_holds {c : Check} {cs : List Check} (hc : c.Holds)
    (e : BuildError) : FirstFailing (c :: cs) e ↔ FirstFailing cs e := by
  constructor
  · intro hx
    obtain ⟨before, c', behind, h, hb, hc', he⟩ := hx
    cases before with
    | nil => cases h; exact absurd hc hc'
    | cons b bs =>
      cases h
      exact ⟨bs, c', behind, rfl, fun b hm => hb b (List.mem_cons_of_mem _ hm), hc', he⟩
  · intro hx
    obtain ⟨before, c', behind, rfl, hb, hc', he⟩ := hx
    refine ⟨c :: before, c', behind, rfl, fun b hm => ?_, hc', he⟩
    rcases List.mem_cons.1 hm with rfl | hm
    · exact hc
    · exact hb b hm

/-- No condition fails if all hold. -/
theorem forall_not_firstFailing_iff (cs : List Check) :
    (∀ e, ¬ FirstFailing cs e) ↔ ∀ c ∈ cs, c.Holds := by
  induction cs with
  | nil => simp [not_firstFailing_nil]
  | cons c cs ih =>
    by_cases hc : c.Holds
    · simp only [firstFailing_cons_of_holds hc, ih, List.forall_mem_cons, hc, true_and]
    · simp only [firstFailing_cons_of_not hc, List.forall_mem_cons, hc, false_and, iff_false]
      exact fun h => h c.error rfl

/-! ## One step of a build -/

section Steps

variable {α : Type} {cs : List Check}

/-- A text is looked at first, and what follows only if it is not blank. -/
theorem nonBlank_bind_error {name value : String} {next : String → Except BuildError α}
    (h : ∀ e, next value = .error e ↔ FirstFailing cs e) (e : BuildError) :
    (nonBlank name value >>= next) = .error e ↔ FirstFailing (textCheck name value :: cs) e := by
  by_cases hb : Text.AllBlank value
  · have hc : ¬ (textCheck name value).Holds := by
      simpa [textCheck, Text.trimmed_eq_empty_iff] using hb
    rw [firstFailing_cons_of_not hc, nonBlank, if_pos hb]
    change (Except.error _ : Except BuildError α) = .error e ↔ _
    rw [Except.error.injEq]
    rfl
  · have hc : (textCheck name value).Holds := by
      simpa [textCheck, Text.trimmed_eq_empty_iff] using hb
    rw [firstFailing_cons_of_holds hc, nonBlank, if_neg hb]
    exact h e

/-- A version is looked at first, and what follows only if it has an API version. -/
theorem apiOf_bind_error {version : String} {next : ApiVersion → Except BuildError α}
    (h : ∀ api, ∀ e, next api = .error e ↔ FirstFailing cs e) (e : BuildError) :
    (apiOf version >>= next) = .error e ↔ FirstFailing (versionCheck version :: cs) e := by
  cases hv : ApiVersion.ofVersion? version with
  | none =>
    have hc : ¬ (versionCheck version).Holds := by simp [versionCheck, hv]
    rw [firstFailing_cons_of_not hc, apiOf, hv]
    change (Except.error _ : Except BuildError α) = .error e ↔ _
    rw [Except.error.injEq]
    rfl
  | some api =>
    have hc : (versionCheck version).Holds := ⟨api, hv⟩
    rw [firstFailing_cons_of_holds hc, apiOf, hv]
    exact h api e

theorem nonBlank_bind_ok {name value : String} {next : String → Except BuildError α} {a : α}
    (h : (nonBlank name value >>= next) = .ok a) : next value = .ok a := by
  by_cases hb : Text.AllBlank value
  · rw [nonBlank, if_pos hb] at h
    cases h
  · rw [nonBlank, if_neg hb] at h
    exact h

theorem apiOf_bind_ok {version : String} {next : ApiVersion → Except BuildError α} {a : α}
    (h : (apiOf version >>= next) = .ok a) :
    ∃ api, ApiVersion.ofVersion? version = some api ∧ next api = .ok a := by
  cases hv : ApiVersion.ofVersion? version with
  | none =>
    rw [apiOf, hv] at h
    cases h
  | some api =>
    rw [apiOf, hv] at h
    exact ⟨api, rfl, h⟩

end Steps

/-! ## The names of the variables -/

/-- The variables of a build are those of the schema in order. -/
theorem names_entriesOf (dialect : Dialect) (m : Mod) (v : Variant) (version : String)
    (api : ApiVersion) (artifact : Artifact) :
    names (entriesOf dialect m v version api artifact) = schema dialect artifact.isFile := by
  cases artifact <;> rfl

/-- The dialect changes two names and no value. -/
theorem entriesOf_legacy (m : Mod) (v : Variant) (version : String) (api : ApiVersion)
    (artifact : Artifact) :
    entriesOf .legacy m v version api artifact =
      (entriesOf .shadow m v version api artifact).map fun e => (legacyName e.1, e.2) := by
  cases artifact <;> rfl

theorem ofEntries_entriesOf (dialect : Dialect) (m : Mod) (v : Variant) (version : String)
    (api : ApiVersion) (artifact : Artifact) :
    ∃ t, Table.ofEntries dialect (entriesOf dialect m v version api artifact) = .ok t ∧
      t.entries = entriesOf dialect m v version api artifact :=
  Table.ofEntries_of_schema (names_entriesOf dialect m v version api artifact)

/-! ## A build -/

/-- A build fails with the error of the first condition that does not hold. -/
theorem build_eq_error_iff (dialect : Dialect) (d : Descriptor) (v : Variant) (version : String)
    (artifact : Artifact) (e : BuildError) :
    build dialect d v version artifact = .error e ↔ FirstFailing (checks d.mod version) e := by
  refine nonBlank_bind_error (fun e => ?_) e
  refine nonBlank_bind_error (fun e => ?_) e
  refine apiOf_bind_error (fun api e => ?_) e
  refine nonBlank_bind_error (fun e => ?_) e
  refine nonBlank_bind_error (fun e => ?_) e
  refine nonBlank_bind_error (fun e => ?_) e
  refine nonBlank_bind_error (fun e => ?_) e
  obtain ⟨t, ht, -⟩ := ofEntries_entriesOf dialect d.mod v version api artifact
  rw [ht]
  exact iff_of_false (fun h => nomatch h) (not_firstFailing_nil e)

/-- The variables of a table that was built. -/
theorem entries_of_build {dialect : Dialect} {d : Descriptor} {v : Variant} {version : String}
    {artifact : Artifact} {t : Table} (h : build dialect d v version artifact = .ok t) :
    ∃ api, ApiVersion.ofVersion? version = some api ∧
      t.entries = entriesOf dialect d.mod v version api artifact := by
  obtain ⟨api, hapi, h⟩ := apiOf_bind_ok (nonBlank_bind_ok (nonBlank_bind_ok h))
  have h := nonBlank_bind_ok (nonBlank_bind_ok (nonBlank_bind_ok (nonBlank_bind_ok h)))
  obtain ⟨t', ht', he⟩ := ofEntries_entriesOf dialect d.mod v version api artifact
  rw [ht'] at h
  cases h
  exact ⟨api, hapi, he⟩

/-- The values in a table that was built. -/
theorem get?_of_build {dialect : Dialect} {d : Descriptor} {v : Variant} {version : String}
    {artifact : Artifact} {t : Table} (h : build dialect d v version artifact = .ok t) :
    ∃ api, ApiVersion.ofVersion? version = some api ∧
      ∀ {name value}, (name, value) ∈ entriesOf dialect d.mod v version api artifact →
        t.get? name = some value := by
  obtain ⟨api, hapi, hentries⟩ := entries_of_build h
  exact ⟨api, hapi, fun hmem => Table.get?_eq_some_iff.2 (hentries ▸ hmem)⟩

theorem exists_build_iff (dialect : Dialect) (d : Descriptor) (v : Variant) (version : String)
    (artifact : Artifact) :
    (∃ t, build dialect d v version artifact = .ok t) ↔ ∀ c ∈ checks d.mod version, c.Holds := by
  rw [← forall_not_firstFailing_iff]
  simp only [← build_eq_error_iff dialect d v version artifact]
  cases build dialect d v version artifact with
  | ok t => simp
  | error e => simp

/-- A build has a table exactly if its texts are not blank and its version has an
API version.  The names are then those of the schema in order.  Otherwise the
first condition that does not hold tells the error, which is never about the
schema.  The two dialects differ in two names only. -/
theorem build_follows_checks (d : Descriptor) (v : Variant) (version : String)
    (artifact : Artifact) :
    (∀ dialect, (∃ t, build dialect d v version artifact = .ok t) ↔
      ∀ c ∈ checks d.mod version, c.Holds) ∧
    (∀ dialect t, build dialect d v version artifact = .ok t →
      names t.entries = schema dialect artifact.isFile) ∧
    (∀ dialect e, build dialect d v version artifact = .error e ↔
      FirstFailing (checks d.mod version) e) ∧
    (∀ dialect cause, build dialect d v version artifact ≠ .error (.table cause)) ∧
    ∀ t t', build .shadow d v version artifact = .ok t →
      build .legacy d v version artifact = .ok t' →
      t'.entries = t.entries.map fun e => (legacyName e.1, e.2) := by
  refine ⟨fun dialect => exists_build_iff dialect d v version artifact, ?_,
    fun dialect => build_eq_error_iff dialect d v version artifact, ?_, ?_⟩
  · intro dialect t h
    obtain ⟨api, -, he⟩ := entries_of_build h
    rw [he, names_entriesOf]
  · intro dialect cause h
    rw [build_eq_error_iff] at h
    obtain ⟨before, c, behind, hcs, -, -, he⟩ := h
    have hc : c ∈ checks d.mod version := by rw [hcs]; simp
    simp only [checks, List.mem_cons, List.not_mem_nil, or_false] at hc
    rcases hc with rfl | rfl | rfl | rfl | rfl | rfl | rfl <;> cases he
  · intro t t' h h'
    obtain ⟨api, hapi, he⟩ := entries_of_build h
    obtain ⟨api', hapi', he'⟩ := entries_of_build h'
    cases hapi.symm.trans hapi'
    rw [he', he, entriesOf_legacy]

end ModBuild.Variables
