/-!
# Replacement of words

Words are tried in a fixed order, the longest first, and words of one length in
the order in which they were given.  A text is read once from the left.  At
every place the first word in this order that starts there is taken, its value
is written, and reading goes on behind the word.  Where nothing is taken, one
item of the text is kept.  So values are not read again.

The empty word starts everywhere and is tried last.  Behind it reading goes on
at the same place, and there it is not taken a second time.
-/

namespace ModBuild.Template

variable {α : Type} [DecidableEq α]

/-- A word with its value. -/
structure Replacement (α : Type) where
  word : List α
  value : List α
deriving DecidableEq

/-- Put a replacement in front of the first whose word is not longer. -/
def Replacement.insertByLength (r : Replacement α) :
    List (Replacement α) → List (Replacement α)
  | [] => [r]
  | s :: ss =>
    if s.word.length ≤ r.word.length then r :: s :: ss else s :: r.insertByLength ss

/-- The replacements with the longest words first.  Words of one length keep
their order. -/
def longestFirst : List (Replacement α) → List (Replacement α)
  | [] => []
  | r :: rs => r.insertByLength (longestFirst rs)

/-- The first of some words that a text starts with.  If the search has to
advance, the empty word does not count. -/
def firstAt? (rs : List (Replacement α)) (advance : Bool) (text : List α) :
    Option (Replacement α) :=
  rs.find? fun r => r.word.isPrefixOf text && !(advance && r.word.isEmpty)

/-- What is taken at one place.  After an empty word the search is made once
more, and then it has to advance. -/
def takenAt (rs : List (Replacement α)) (text : List α) : List (Replacement α) :=
  match firstAt? rs false text with
  | none => []
  | some r => if r.word = [] then r :: (firstAt? rs true text).toList else [r]

/-- Replace in a text of which the first `skip` items belong to a word that was
taken. -/
def replaceFrom (rs : List (Replacement α)) (skip : Nat) : List α → List α
  | [] => (takenAt rs []).flatMap (·.value)
  | c :: cs =>
    match skip with
    | skip + 1 => replaceFrom rs skip cs
    | 0 =>
      let taken := takenAt rs (c :: cs)
      match (taken.flatMap (·.word)).length with
      | 0 => taken.flatMap (·.value) ++ c :: replaceFrom rs 0 cs
      | skip + 1 => taken.flatMap (·.value) ++ replaceFrom rs skip cs

/-- Replace the words of a text.  Without words there is nothing to do. -/
def replace (rs : List (Replacement α)) (text : List α) : List α :=
  replaceFrom (longestFirst rs) 0 text

example : replace [⟨"ab".toList, "X".toList⟩, ⟨"abc".toList, "Y".toList⟩] "abcab_".toList =
    "YX_".toList := by decide
example : replace [⟨[], ['-']⟩, ⟨['b'], ['B']⟩] "abc".toList = "-aB-c-".toList := by decide

end ModBuild.Template
