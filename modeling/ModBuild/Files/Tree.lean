import ModBuild.Document.Entries

/-!
# File trees

A file tree says of every *location* what is there: a file with its octets, a
directory, or nothing.  A location is the list of names that lead to it from
the top, and the top is always a directory.

Locations have no dots in them.  A way through the tree that has some is
*walked*: every name but the last must lead through a directory, and a double
dot goes back up.  The end of a walk need not exist.
-/

namespace ModBuild

/-- The names that lead from the top to a place. -/
abbrev Location := List String

/-- What is at a location. -/
inductive Node where
  /-- A file with its octets. -/
  | file (octets : List UInt8)
  | directory
deriving DecidableEq, Repr

/-- What is at every location other than the top. -/
structure FileTree where
  /-- The locations where something is, without repetition. -/
  entries : List (Location × Node)
deriving DecidableEq, Repr

namespace FileTree

open Document

/-- The tree with nothing in it. -/
def empty : FileTree := ⟨[]⟩

/-- What is at a location. -/
def node? (t : FileTree) (l : Location) : Option Node :=
  if l = [] then some .directory else Entries.get? l t.entries

/-- The tree with something put at a location other than the top. -/
def set (t : FileTree) (l : Location) (n : Node) : FileTree :=
  ⟨Entries.set l n t.entries⟩

/-- The tree without a location and all below it. -/
def remove (t : FileTree) (l : Location) : FileTree :=
  ⟨t.entries.filter fun e => !l.isPrefixOf e.1⟩

/-- The names right below a location. -/
def names (t : FileTree) (l : Location) : List String :=
  t.entries.filterMap fun e => if e.1.dropLast = l then e.1.getLast? else none

/-- What is strictly below a location, with the names that lead there from it. -/
def below (t : FileTree) (l : Location) : List (Location × Node) :=
  t.entries.filterMap fun e =>
    if l.isPrefixOf e.1 ∧ e.1 ≠ l then some (e.1.drop l.length, e.2) else none

/-- The files strictly below a location, with the names that lead there from
it. -/
def filesBelow (t : FileTree) (l : Location) : List Location :=
  (t.below l).filterMap fun e =>
    match e.2 with
    | .file _ => some e.1
    | .directory => none

/-- The locations of the directories that a location lies in, from the top on,
below a given one. -/
def ancestors (base : Location) : List String → List Location
  | [] => []
  | [_] => []
  | s :: ss => (base ++ [s]) :: ancestors (base ++ [s]) ss

/-- The tree with a directory at each of some locations where nothing was. -/
def addDirectories (t : FileTree) (ls : List Location) : FileTree :=
  ls.foldl (fun t l => if (t.node? l).isSome then t else t.set l .directory) t

/-- The tree with something put at a place below a location, and the directories
on the way to it. -/
def plant (t : FileTree) (base : Location) (names : List String) (n : Node) : FileTree :=
  let t := t.addDirectories (ancestors base names)
  match n with
  | .directory => t.addDirectories [base ++ names]
  | .file _ => t.set (base ++ names) n

/-- Why a walk comes to no end. -/
inductive Obstacle where
  /-- The way leads through a place where nothing is. -/
  | missing
  /-- The way leads through a file. -/
  | notDirectory
deriving DecidableEq, Repr

/-- Walk from a location. -/
def walk (t : FileTree) (l : Location) : List String → Except Obstacle Location
  | [] => .ok l
  | s :: ss =>
    match t.node? l with
    | none => .error .missing
    | some (.file _) => .error .notDirectory
    | some .directory => t.walk (if s = ".." then l.dropLast else l ++ [s]) ss

theorem node?_set (t : FileTree) (l q : Location) (n : Node) (h : l ≠ []) :
    (t.set l n).node? q = if q = l then some n else t.node? q := by
  by_cases hq : q = []
  · simp [node?, hq, Ne.symm h]
  · simp [node?, set, hq, Entries.get?_set]

theorem node?_remove (t : FileTree) (l q : Location) (h : q ≠ []) :
    (t.remove l).node? q = if l <+: q then none else t.node? q := by
  simp only [node?, h, if_false, remove]
  induction t.entries with
  | nil => simp [Entries.get?]
  | cons e es ih =>
    have hb : l.isPrefixOf e.1 = true ↔ l <+: e.1 := List.isPrefixOf_iff_prefix
    by_cases he : l <+: e.1
    · by_cases hq : e.1 = q
      · simp [hb.2 he, ih, hq ▸ he]
      · simp [hb.2 he, ih, Entries.get?, hq]
    · rw [List.filter_cons, if_pos (by simp [mt hb.1 he])]
      by_cases hq : e.1 = q
      · simp [Entries.get?, hq, hq ▸ he]
      · simp [Entries.get?, hq, ih]

end FileTree

end ModBuild
