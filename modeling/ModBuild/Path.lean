import ModBuild.Text.Field

/-!
# Paths

A path is a list of *segments* below a root, or below no root if it is relative.
Reading a path drops repeated slashes, single dots and a slash at the end, and
keeps double dots.  Exactly two slashes at the front are a root of their own.
The relative path without segments is written as a single dot.
-/

namespace ModBuild

/-- What a path starts from. -/
inductive Root where
  | relative
  | slash
  | doubleSlash
deriving DecidableEq, Repr

/-- The text of a root. -/
def Root.text : Root → List Char
  | .relative => []
  | .slash => ['/']
  | .doubleSlash => ['/', '/']

/-- A path. -/
structure Path where
  root : Root
  /-- Its segments, of which none is empty or a single dot or holds a slash. -/
  segments : List String
deriving DecidableEq, Repr

namespace Path

/-- The root that a text starts with. -/
def rootOf : List Char → Root
  | '/' :: '/' :: '/' :: _ => .slash
  | '/' :: '/' :: _ => .doubleSlash
  | '/' :: _ => .slash
  | _ => .relative

/-- Read a path. -/
def ofString (text : String) : Path where
  root := rootOf text.toList
  segments :=
    ((Text.fields '/' text.toList).filter fun p => p ≠ [] ∧ p ≠ ['.']).map String.ofList

/-- The segments with slashes between them. -/
def joined (p : Path) : List Char :=
  List.intercalate ['/'] (p.segments.map String.toList)

/-- Write a path. -/
def toString (p : Path) : String :=
  let text := p.root.text ++ p.joined
  if text = [] then "." else .ofList text

instance : ToString Path := ⟨toString⟩

/-- The working directory. -/
def here : Path := ⟨.relative, []⟩

/-- A path seen from another.  A path with a root stands for itself. -/
def join (base p : Path) : Path :=
  match p.root with
  | .relative => { base with segments := base.segments ++ p.segments }
  | _ => p

instance : Div Path := ⟨join⟩

/-- The path that has a segment less.  Without segments it is the path itself. -/
def parent (p : Path) : Path :=
  { p with segments := p.segments.dropLast }

/-- The last segment, or nothing. -/
def name (p : Path) : String :=
  p.segments.getLast?.getD ""

/-- The place of the last dot of a name, unless it is the first or the last
character. -/
def suffixStart? (name : List Char) : Option Nat :=
  let after := (name.reverse.takeWhile (· ≠ '.')).length
  if 0 < after ∧ after + 1 < name.length then some (name.length - after - 1) else none

/-- The last segment without its last suffix. -/
def stem (p : Path) : String :=
  match suffixStart? p.name.toList with
  | some i => .ofList (p.name.toList.take i)
  | none => p.name

example : (ofString "a//b/./../c/").toString = "a/b/../c" := by decide +kernel
example : (ofString "//x").toString = "//x" ∧ (ofString "///x").toString = "/x" := by
  decide +kernel
example : (ofString "").toString = "." ∧ (ofString "./").toString = "." := by decide +kernel
example : (ofString "l/a.b.jar").stem = "a.b" ∧ (ofString ".a").stem = ".a" ∧
    (ofString "a.").stem = "a." := by decide +kernel

end Path

end ModBuild
