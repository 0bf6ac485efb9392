import ModBuild.Files.Tree

/-!
# The order of locations

Locations are ordered name by name, and names are ordered by the numbers of their
characters.  So what is in a directory comes before a name that only goes on
where the name of the directory ends.
-/

namespace ModBuild

/-- Whether a text comes before another one or is it. -/
def textsInOrder : List Char → List Char → Bool
  | [], _ => true
  | _ :: _, [] => false
  | a :: as, b :: bs => if a = b then textsInOrder as bs else a.toNat < b.toNat

/-- Whether a location comes before another one or is it. -/
def Location.inOrder : Location → Location → Bool
  | [], _ => true
  | _ :: _, [] => false
  | a :: as, b :: bs =>
    if a = b then Location.inOrder as bs else textsInOrder a.toList b.toList

/-- Put a location in its place. -/
def Location.insertSorted (l : Location) : List Location → List Location
  | [] => [l]
  | m :: ms => if l.inOrder m then l :: m :: ms else m :: Location.insertSorted l ms

/-- Some locations in order. -/
def Location.sorted : List Location → List Location
  | [] => []
  | l :: ls => Location.insertSorted l (Location.sorted ls)

example : Location.sorted [["a.txt"], ["a", "b"], ["Z"]] = [["Z"], ["a", "b"], ["a.txt"]] := by
  decide +kernel

end ModBuild
