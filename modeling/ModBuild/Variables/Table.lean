import ModBuild.Document.Entries
import ModBuild.Variables.Schema

/-!
# Tables of variables

A table pairs every name of its schema with a value, each name once.  The
entries may come in any order and keep it.  Which of the two schemas of a
dialect is meant is told by the entries: the one with a file of the core
library, if they name one.

Both conditions are part of the type, so a table at hand is always complete.
-/

namespace ModBuild.Variables

/-- The names of some entries. -/
def names (entries : List (String × String)) : List String :=
  entries.map (·.1)

/-- The schema that some entries are held against. -/
def schemaOf (dialect : Dialect) (entries : List (String × String)) : List String :=
  schema dialect (decide (fileKey ∈ names entries))

/-- A complete table of variables. -/
structure Table where
  /-- The dialect of its schema. -/
  dialect : Dialect
  /-- The variables with their values. -/
  entries : List (String × String)
  nodup : (names entries).Nodup
  /-- The names are those of the schema. -/
  complete : ∀ n, n ∈ names entries ↔ n ∈ schemaOf dialect entries

/-- Why entries make no table. -/
inductive TableError where
  | repeated (name : String)
  /-- Some names are missing, or some are not in the schema. -/
  | mismatch (dialect : Dialect) (missing unexpected : List String)
deriving DecidableEq, Repr

/-- A list of names in a message. -/
def listedNames : List String → String
  | [] => "none"
  | ns => Text.quotedList ns

/-- The message for entries that make no table. -/
def TableError.message : TableError → String
  | .repeated name => "Duplicate variable '" ++ name ++ "'"
  | .mismatch dialect missing unexpected =>
    "Variable table does not match the " ++ dialect.name ++ " schema (missing: " ++
      listedNames missing ++ ", unexpected: " ++ listedNames unexpected ++ ")"

/-- The first name that occurs among the names before it, which start with the
given ones. -/
def firstRepeated? (before : List String) : List String → Option String
  | [] => none
  | n :: ns => if n ∈ before then some n else firstRepeated? (n :: before) ns

theorem firstRepeated?_eq_none_iff (before ns : List String) :
    firstRepeated? before ns = none ↔ ns.Nodup ∧ ∀ n ∈ ns, n ∉ before := by
  induction ns generalizing before with
  | nil => simp [firstRepeated?]
  | cons n ns ih =>
    simp only [firstRepeated?, List.nodup_cons, List.mem_cons, forall_eq_or_imp]
    by_cases h : n ∈ before
    · simp [h]
    · simp only [h, if_false, ih, List.mem_cons, not_or, not_false_eq_true, true_and]
      constructor
      · rintro ⟨hn, hb⟩
        exact ⟨⟨fun hm => (hb n hm).1 rfl, hn⟩, fun m hm => (hb m hm).2⟩
      · rintro ⟨⟨hm, hn⟩, hb⟩
        exact ⟨hn, fun m hm' => ⟨fun e => hm (e ▸ hm'), hb m hm'⟩⟩

/-- The names of a schema that are not among some names. -/
def missingFrom (found expected : List String) : List String :=
  expected.filter fun n => n ∉ found

theorem missingFrom_eq_nil_iff (found expected : List String) :
    missingFrom found expected = [] ↔ ∀ n ∈ expected, n ∈ found := by
  simp [missingFrom, List.filter_eq_nil_iff]

/-- Make a table of entries. -/
def Table.ofEntries (dialect : Dialect) (entries : List (String × String)) :
    Except TableError Table :=
  match hr : firstRepeated? [] (names entries) with
  | some n => .error (.repeated n)
  | none =>
    let missing := missingFrom (names entries) (schemaOf dialect entries)
    let unexpected := missingFrom (schemaOf dialect entries) (names entries)
    if h : missing = [] ∧ unexpected = [] then
      .ok {
        dialect
        entries
        nodup := ((firstRepeated?_eq_none_iff _ _).1 hr).1
        complete := fun n =>
          ⟨(missingFrom_eq_nil_iff _ _).1 h.2 n, (missingFrom_eq_nil_iff _ _).1 h.1 n⟩ }
    else
      .error (.mismatch dialect missing unexpected)

/-- The value of a variable. -/
def Table.get? (t : Table) (name : String) : Option String :=
  Document.Entries.get? name t.entries

/-- The entries as messages show them. -/
def Table.shown (t : Table) : String :=
  "VariableTable(\x7b" ++
    ", ".intercalate (t.entries.map fun e => Text.quoted e.1 ++ ": " ++ Text.quoted e.2) ++
    "\x7d)"

end ModBuild.Variables
