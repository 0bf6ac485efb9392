/-!
# Entries in order

A mapping that remembers its order is a list of pairs in which no key is
repeated.  Setting a key that is present replaces its value in place, and
setting a new key appends a pair.  So a key keeps the place of its first
setting and holds the value of its last.
-/

namespace ModBuild.Document.Entries

variable {κ α : Type} [DecidableEq κ]

/-- Set a key to a value. -/
def set (key : κ) (value : α) : List (κ × α) → List (κ × α)
  | [] => [(key, value)]
  | e :: es => if e.1 = key then (e.1, value) :: es else e :: set key value es

/-- Set keys in the given order, starting from nothing. -/
def ofPairs (pairs : List (κ × α)) : List (κ × α) :=
  pairs.foldl (fun es p => set p.1 p.2 es) []

/-- The value of a key. -/
def get? (key : κ) : List (κ × α) → Option α
  | [] => none
  | e :: es => if e.1 = key then some e.2 else get? key es

/-- A key that was just set has the value it was set to. -/
theorem get?_set (key k : κ) (value : α) (es : List (κ × α)) :
    get? k (set key value es) = if k = key then some value else get? k es := by
  induction es with
  | nil => by_cases h : key = k <;> simp [set, get?, h, eq_comm]
  | cons e es ih =>
    by_cases h : e.1 = key
    · by_cases hk : e.1 = k
      · simp [set, get?, h, ← hk]
      · have : k ≠ key := fun e' => hk (h.trans e'.symm)
        simp [set, get?, h, this, Ne.symm this]
    · by_cases hk : e.1 = k
      · have : k ≠ key := fun e' => h (hk.trans e')
        simp [set, get?, hk, this]
      · simp [set, get?, h, hk, ih]

theorem mem_of_get? {key : κ} {value : α} {es : List (κ × α)} (h : get? key es = some value) :
    (key, value) ∈ es := by
  induction es with
  | nil => cases h
  | cons e es ih =>
    rw [get?] at h
    split at h
    · next hk =>
      cases h
      rw [← hk]
      exact List.mem_cons_self
    · exact List.mem_cons_of_mem _ (ih h)

/-- Where no key is repeated, every pair holds the value of its key. -/
theorem get?_of_mem {es : List (κ × α)} (hn : (es.map (·.1)).Nodup) {e : κ × α} (h : e ∈ es) :
    get? e.1 es = some e.2 := by
  induction es with
  | nil => cases h
  | cons d ds ih =>
    obtain ⟨hd, hds⟩ := List.nodup_cons.1 hn
    rw [get?]
    rcases List.mem_cons.1 h with rfl | h
    · rw [if_pos rfl]
    · have hne : d.1 ≠ e.1 := fun he => hd (List.mem_map.2 ⟨e, h, he.symm⟩)
      rw [if_neg hne, ih hds h]

example : ofPairs [("a", 1), ("b", 2), ("a", 3)] = [("a", 3), ("b", 2)] := by decide

end ModBuild.Document.Entries
