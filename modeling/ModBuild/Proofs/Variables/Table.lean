import Mathlib.Data.List.Perm.Basic
import Mathlib.Data.List.Nodup
import ModBuild.Variables.Table

/-!
# Making tables

Entries make a table exactly if their names are those of a schema in any order, and the table
has them as they are given (`Table.ofEntries_iff_perm`).  The names decide which schema that is,
since only one of the two has a file in it.  Entries that make no table are refused for the first
name that is repeated, or else for the names that are missing from the schema or not in it.  A
table gives a variable the value that it is paired with (`Table.get?_eq_some_iff`).
-/

namespace ModBuild.Variables

/-- The file of the core library has a variable exactly in the schema for it. -/
theorem fileKey_mem_schema (dialect : Dialect) (atHand : Bool) :
    fileKey ∈ schema dialect atHand ↔ atHand = true := by
  cases dialect <;> cases atHand <;> decide +kernel

/-- The download of the core library has a variable exactly in the other schema. -/
theorem downloadKey_mem_schema (dialect : Dialect) (atHand : Bool) :
    downloadKey ∈ schema dialect atHand ↔ atHand = false := by
  cases dialect <;> cases atHand <;> decide +kernel

/-- Names that are those of a schema in any order are held against this schema. -/
theorem schemaOf_of_perm {dialect : Dialect} {atHand : Bool} {entries : List (String × String)}
    (h : (names entries).Perm (schema dialect atHand)) :
    schemaOf dialect entries = schema dialect atHand := by
  have hfile : decide (fileKey ∈ names entries) = atHand := by
    rw [Bool.eq_iff_iff, decide_eq_true_iff, h.mem_iff, fileKey_mem_schema]
  rw [schemaOf, hfile]

theorem firstRepeated?_nil_eq_none_iff (ns : List String) :
    firstRepeated? [] ns = none ↔ ns.Nodup := by
  simp [firstRepeated?_eq_none_iff]

/-- Entries without repetition whose names are expected make a table. -/
theorem Table.ofEntries_eq_ok {dialect : Dialect} {entries : List (String × String)}
    (hn : (names entries).Nodup)
    (hc : ∀ n, n ∈ names entries ↔ n ∈ schemaOf dialect entries) :
    Table.ofEntries dialect entries = .ok ⟨dialect, entries, hn, hc⟩ := by
  have hr := (firstRepeated?_nil_eq_none_iff _).2 hn
  have hm : missingFrom (names entries) (schemaOf dialect entries) = [] :=
    (missingFrom_eq_nil_iff _ _).2 fun n => (hc n).2
  have hu : missingFrom (schemaOf dialect entries) (names entries) = [] :=
    (missingFrom_eq_nil_iff _ _).2 fun n => (hc n).1
  unfold Table.ofEntries
  split
  · next n h => rw [hr] at h; cases h
  · simp [hm, hu]

/-- Entries with the names of a schema in any order make a table. -/
theorem Table.ofEntries_of_perm {dialect : Dialect} {atHand : Bool}
    {entries : List (String × String)} (h : (names entries).Perm (schema dialect atHand)) :
    ∃ t, Table.ofEntries dialect entries = .ok t ∧ t.dialect = dialect ∧ t.entries = entries := by
  have hn : (names entries).Nodup := h.nodup_iff.2 (nodup_schema dialect atHand)
  have hc : ∀ n, n ∈ names entries ↔ n ∈ schemaOf dialect entries := by
    intro n
    rw [schemaOf_of_perm h, h.mem_iff]
  exact ⟨_, Table.ofEntries_eq_ok hn hc, rfl, rfl⟩

/-- Entries with the names of a schema in order make a table. -/
theorem Table.ofEntries_of_schema {dialect : Dialect} {atHand : Bool}
    {entries : List (String × String)} (h : names entries = schema dialect atHand) :
    ∃ t, Table.ofEntries dialect entries = .ok t ∧ t.entries = entries := by
  obtain ⟨t, ht, -, hentries⟩ := ofEntries_of_perm (List.Perm.of_eq h)
  exact ⟨t, ht, hentries⟩

theorem Table.get?_eq_some_iff {t : Table} {name value : String} :
    t.get? name = some value ↔ (name, value) ∈ t.entries :=
  ⟨Document.Entries.mem_of_get?, Document.Entries.get?_of_mem t.nodup⟩

theorem Table.get?_eq_none_iff {t : Table} {name : String} :
    t.get? name = none ↔ name ∉ names t.entries := by
  rw [Option.eq_none_iff_forall_not_mem]
  constructor
  · intro h hname
    obtain ⟨e, he, rfl⟩ := List.mem_map.1 hname
    exact h e.2 (get?_eq_some_iff.2 he)
  · intro h value hvalue
    exact h (List.mem_map.2 ⟨(name, value), get?_eq_some_iff.1 hvalue, rfl⟩)

/-! ## Entries that make no table -/

/-- The first name of a list that stands in front of itself. -/
def FirstRepeated (ns : List String) (n : String) : Prop :=
  ∃ before behind, ns = before ++ n :: behind ∧ before.Nodup ∧ n ∈ before

/-- Some of the names of a list: those that meet a condition, in their order. -/
structure Selects (all : List String) (P : String → Prop) (found : List String) : Prop where
  sublist : found.Sublist all
  mem_iff : ∀ n, n ∈ found ↔ n ∈ all ∧ P n

/-- What entries that make no table are refused for.  Repetition comes first, and the names are
looked at only after it. -/
inductive Refused (dialect : Dialect) (entries : List (String × String)) : TableError → Prop
  | repeated {n : String} (first : FirstRepeated (names entries) n) :
      Refused dialect entries (.repeated n)
  /-- Some names are missing, or some are not in the schema.  It is the one with a file exactly
  if a file is named. -/
  | mismatch {missing unexpected : List String} (nodup : (names entries).Nodup)
      (missing_of : Selects (schema dialect (decide ("UMC_FILE" ∈ names entries)))
        (· ∉ names entries) missing)
      (unexpected_of : Selects (names entries)
        (· ∉ schema dialect (decide ("UMC_FILE" ∈ names entries))) unexpected)
      (some_name : missing ≠ [] ∨ unexpected ≠ []) :
      Refused dialect entries (.mismatch dialect missing unexpected)

theorem firstRepeated?_eq_some_iff (seen ns : List String) (n : String) :
    firstRepeated? seen ns = some n ↔
      ∃ before behind, ns = before ++ n :: behind ∧ before.Nodup ∧ (∀ m ∈ before, m ∉ seen) ∧
        (n ∈ before ∨ n ∈ seen) := by
  induction ns generalizing seen with
  | nil => simp [firstRepeated?]
  | cons m ns ih =>
    rw [firstRepeated?]
    split
    · next hm =>
      constructor
      · intro h
        cases h
        exact ⟨[], ns, rfl, .nil, by simp, .inr hm⟩
      · rintro ⟨before, behind, hns, -, hseen, -⟩
        cases before with
        | nil => cases hns; rfl
        | cons b before => cases hns; exact absurd hm (hseen m List.mem_cons_self)
    · next hm =>
      rw [ih]
      constructor
      · rintro ⟨before, behind, rfl, hnodup, hseen, hn⟩
        simp only [List.mem_cons, not_or] at hseen hn
        refine ⟨m :: before, behind, rfl, ?_, ?_, ?_⟩
        · exact List.nodup_cons.2 ⟨fun h => (hseen m h).1 rfl, hnodup⟩
        · exact List.forall_mem_cons.2 ⟨hm, fun b hb => (hseen b hb).2⟩
        · rw [List.mem_cons]
          tauto
      · rintro ⟨before, behind, hns, hnodup, hseen, hn⟩
        cases before with
        | nil =>
          cases hns
          exact absurd (hn.resolve_left List.not_mem_nil) hm
        | cons b before =>
          cases hns
          obtain ⟨hb, hnodup⟩ := List.nodup_cons.1 hnodup
          refine ⟨before, behind, rfl, hnodup, fun x hx => ?_, ?_⟩
          · rw [List.mem_cons, not_or]
            exact ⟨fun he => hb (he ▸ hx), hseen x (List.mem_cons_of_mem _ hx)⟩
          · rw [List.mem_cons] at hn ⊢
            tauto

theorem firstRepeated?_nil_eq_some_iff (ns : List String) (n : String) :
    firstRepeated? [] ns = some n ↔ FirstRepeated ns n := by
  rw [firstRepeated?_eq_some_iff, FirstRepeated]
  simp

theorem selects_missingFrom (found expected : List String) :
    Selects expected (· ∉ found) (missingFrom found expected) where
  sublist := List.filter_sublist
  mem_iff := by simp [missingFrom]

/-- What is missing is told by its order and its members, since no name is repeated. -/
theorem Selects.eq_missingFrom {found expected missing : List String} (hn : expected.Nodup)
    (h : Selects expected (· ∉ found) missing) : missing = missingFrom found expected := by
  have hkept : missing.filter (· ∉ found) = missing :=
    List.filter_eq_self.2 fun n hmem => decide_eq_true ((h.mem_iff n).1 hmem).2
  have hsublist : missing.Sublist (missingFrom found expected) := by
    rw [← hkept]
    exact h.sublist.filter _
  have hperm : missing.Perm (missingFrom found expected) :=
    (List.perm_ext_iff_of_nodup (hn.sublist h.sublist)
      (hn.sublist (selects_missingFrom found expected).sublist)).2 fun n => by
        rw [h.mem_iff, (selects_missingFrom found expected).mem_iff]
  exact hsublist.eq_of_length hperm.length_eq

theorem Table.ofEntries_of_repeated {dialect : Dialect} {entries : List (String × String)}
    {n : String} (h : FirstRepeated (names entries) n) :
    Table.ofEntries dialect entries = .error (.repeated n) := by
  have hr := (firstRepeated?_nil_eq_some_iff _ n).2 h
  unfold Table.ofEntries
  split
  · next m hm =>
    cases hr.symm.trans hm
    rfl
  · next hm => cases hr.symm.trans hm

theorem Table.ofEntries_of_mismatch {dialect : Dialect} {entries : List (String × String)}
    (hn : (names entries).Nodup)
    (h : missingFrom (names entries) (schemaOf dialect entries) ≠ [] ∨
      missingFrom (schemaOf dialect entries) (names entries) ≠ []) :
    Table.ofEntries dialect entries =
      .error (.mismatch dialect (missingFrom (names entries) (schemaOf dialect entries))
        (missingFrom (schemaOf dialect entries) (names entries))) := by
  have hr := (firstRepeated?_nil_eq_none_iff _).2 hn
  unfold Table.ofEntries
  split
  · next m hm => cases hr.symm.trans hm
  · exact dif_neg (not_and_or.2 h)

/-- The answer for entries that make no table. -/
theorem Table.ofEntries_eq_error_iff {dialect : Dialect} {entries : List (String × String)}
    {cause : TableError} :
    Table.ofEntries dialect entries = .error cause ↔ Refused dialect entries cause := by
  constructor
  · intro h
    cases hr : firstRepeated? [] (names entries) with
    | some n =>
      have hfirst := (firstRepeated?_nil_eq_some_iff _ n).1 hr
      cases (Table.ofEntries_of_repeated hfirst).symm.trans h
      exact .repeated hfirst
    | none =>
      have hn := (firstRepeated?_nil_eq_none_iff _).1 hr
      by_cases hnames : missingFrom (names entries) (schemaOf dialect entries) ≠ [] ∨
          missingFrom (schemaOf dialect entries) (names entries) ≠ []
      · cases (Table.ofEntries_of_mismatch hn hnames).symm.trans h
        exact .mismatch hn (selects_missingFrom _ _) (selects_missingFrom _ _) hnames
      · rw [not_or, not_not, not_not, missingFrom_eq_nil_iff, missingFrom_eq_nil_iff] at hnames
        have hc : ∀ n, n ∈ names entries ↔ n ∈ schemaOf dialect entries :=
          fun n => ⟨hnames.2 n, hnames.1 n⟩
        cases (Table.ofEntries_eq_ok hn hc).symm.trans h
  · intro h
    cases h with
    | repeated first => exact Table.ofEntries_of_repeated first
    | mismatch nodup missing_of unexpected_of some_name =>
      obtain rfl := missing_of.eq_missingFrom (nodup_schema _ _)
      obtain rfl := unexpected_of.eq_missingFrom nodup
      exact Table.ofEntries_of_mismatch nodup some_name

/-! ## Entries that make one -/

theorem Table.of_ofEntries {dialect : Dialect} {entries : List (String × String)} {t : Table}
    (h : Table.ofEntries dialect entries = .ok t) : t.dialect = dialect ∧ t.entries = entries := by
  unfold Table.ofEntries at h
  split at h
  · cases h
  · dsimp only at h
    split at h
    · cases h
      exact ⟨rfl, rfl⟩
    · cases h

/-- The names of a table are those of its schema, each once. -/
theorem Table.names_perm (t : Table) :
    (names t.entries).Perm (schemaOf t.dialect t.entries) :=
  (List.perm_ext_iff_of_nodup t.nodup (nodup_schema _ _)).2 t.complete

theorem Table.exists_ofEntries_iff (dialect : Dialect) (entries : List (String × String)) :
    (∃ t, Table.ofEntries dialect entries = .ok t) ↔
      (names entries).Perm (schema dialect true) ∨
        (names entries).Perm (schema dialect false) := by
  constructor
  · rintro ⟨t, ht⟩
    obtain ⟨rfl, rfl⟩ := of_ofEntries ht
    have hperm := t.names_perm
    rw [schemaOf] at hperm
    cases hfile : decide (fileKey ∈ names t.entries) with
    | true => exact .inl (hfile ▸ hperm)
    | false => exact .inr (hfile ▸ hperm)
  · rintro (h | h)
    · obtain ⟨t, ht, -⟩ := ofEntries_of_perm h
      exact ⟨t, ht⟩
    · obtain ⟨t, ht, -⟩ := ofEntries_of_perm h
      exact ⟨t, ht⟩

/-- Entries make a table exactly if their names are those of one of the two schemas in any order.
The table has the entries in their order, and it gives every name the value that it is paired with
and no other name a value.  Otherwise the first repeated name is the answer, or else what is
missing and what is not expected. -/
theorem Table.ofEntries_iff_perm (dialect : Dialect) (entries : List (String × String)) :
    ((∃ t, Table.ofEntries dialect entries = .ok t) ↔
      (names entries).Perm (schema dialect true) ∨
        (names entries).Perm (schema dialect false)) ∧
    (∀ t, Table.ofEntries dialect entries = .ok t →
      t.dialect = dialect ∧ t.entries = entries ∧
        (∀ e ∈ entries, t.get? e.1 = some e.2) ∧ ∀ n, n ∉ names entries → t.get? n = none) ∧
    ∀ cause, Table.ofEntries dialect entries = .error cause ↔ Refused dialect entries cause := by
  refine ⟨exists_ofEntries_iff dialect entries, fun t ht => ?_, fun _ => ofEntries_eq_error_iff⟩
  obtain ⟨hdialect, rfl⟩ := of_ofEntries ht
  exact ⟨hdialect, rfl, fun e he => get?_eq_some_iff.2 he, fun n hn => get?_eq_none_iff.2 hn⟩

end ModBuild.Variables
