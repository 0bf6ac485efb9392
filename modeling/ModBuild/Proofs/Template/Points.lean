import Mathlib.Data.List.Infix
import ModBuild.Proofs.Encoding.Scheme
import ModBuild.Proofs.Encoding.Utf8
import ModBuild.Template.Render

/-!
# Characters as code points

Octets are rendered as code points, and a text without surrogates as characters.  Both come to
the same, as replacement only compares items: a renaming that keeps different items apart can be
done before it or behind it (`replace_rename`).  So a table without surrogates is rendered in
UTF-8 as its text is (`renderOctets_of_decode`), and the only fault is one of the octets
(`renderOctets_of_decode_error`).
-/

namespace ModBuild.Template

open Encoding (Point points)

/-! ## Renaming -/

section Rename

variable {α β : Type} {f : α → β}

/-- Rename the items of a word and of its value. -/
def Replacement.rename (f : α → β) (r : Replacement α) : Replacement β :=
  ⟨r.word.map f, r.value.map f⟩

theorem insertByLength_rename (r : Replacement α) (rs : List (Replacement α)) :
    (r.rename f).insertByLength (rs.map (.rename f)) = (r.insertByLength rs).map (.rename f) := by
  induction rs with
  | nil => rfl
  | cons s ss ih =>
    simp only [List.map_cons, Replacement.insertByLength, Replacement.rename, List.length_map]
    split
    · rfl
    · exact congrArg (s.rename f :: ·) ih

theorem longestFirst_rename (rs : List (Replacement α)) :
    longestFirst (rs.map (.rename f)) = (longestFirst rs).map (.rename f) := by
  induction rs with
  | nil => rfl
  | cons r rs ih => rw [List.map_cons, longestFirst, ih, insertByLength_rename, longestFirst]

variable [DecidableEq α] [DecidableEq β]

theorem firstAt?_rename (hf : f.Injective) (rs : List (Replacement α)) (advance : Bool)
    (text : List α) :
    firstAt? (rs.map (.rename f)) advance (text.map f) =
      (firstAt? rs advance text).map (.rename f) := by
  have hprefix (w : List α) : (w.map f).isPrefixOf (text.map f) = w.isPrefixOf text := by
    rw [Bool.eq_iff_iff, List.isPrefixOf_iff_prefix, List.isPrefixOf_iff_prefix,
      List.prefix_map_iff_of_injective hf]
  rw [firstAt?, firstAt?, List.find?_map]
  simp only [Function.comp_def, Replacement.rename, hprefix, List.isEmpty_map]

theorem takenAt_rename (hf : f.Injective) (rs : List (Replacement α)) (text : List α) :
    takenAt (rs.map (.rename f)) (text.map f) = (takenAt rs text).map (.rename f) := by
  rw [takenAt, takenAt, firstAt?_rename hf, firstAt?_rename hf]
  cases firstAt? rs false text with
  | none => rfl
  | some r =>
    by_cases hr : r.word = []
    · cases firstAt? rs true text <;> simp [Replacement.rename, hr]
    · simp [Replacement.rename, hr]

theorem replaceFrom_rename (hf : f.Injective) (rs : List (Replacement α)) (skip : Nat)
    (text : List α) :
    replaceFrom (rs.map (.rename f)) skip (text.map f) = (replaceFrom rs skip text).map f := by
  have hwords (taken : List (Replacement α)) :
      (taken.map (Replacement.rename f)).flatMap (·.word) = (taken.flatMap (·.word)).map f := by
    simp [List.flatMap_map, List.map_flatMap, Replacement.rename]
  have hvalues (taken : List (Replacement α)) :
      (taken.map (Replacement.rename f)).flatMap (·.value) = (taken.flatMap (·.value)).map f := by
    simp [List.flatMap_map, List.map_flatMap, Replacement.rename]
  induction text generalizing skip with
  | nil => rw [List.map_nil, replaceFrom, replaceFrom, ← hvalues, ← takenAt_rename hf, List.map_nil]
  | cons c cs ih =>
    cases skip with
    | succ skip => exact ih skip
    | zero =>
      have htaken := takenAt_rename hf rs (c :: cs)
      rw [List.map_cons] at htaken ⊢
      simp only [replaceFrom, htaken, hwords, hvalues, List.length_map]
      split <;> simp [ih]

/-- Renaming may be done before replacement or behind it. -/
theorem replace_rename (hf : f.Injective) (rs : List (Replacement α)) (text : List α) :
    replace (rs.map (.rename f)) (text.map f) = (replace rs text).map f := by
  rw [replace, longestFirst_rename, replaceFrom_rename hf, replace]

end Rename

/-! ## Tables without surrogates -/

variable {delimited : Bool} {table : List (String × String)} {octets : List UInt8}

theorem pointReplacements_points (delimited : Bool) (table : List (String × String)) :
    pointReplacements delimited (table.map fun v => (points v.1, points v.2)) =
      (replacements delimited table).map (.rename .char) := by
  cases delimited <;>
    simp [pointReplacements, replacements, token, enclosed, points, Replacement.rename]

theorem replace_points (delimited : Bool) (table : List (String × String)) (text : List Char) :
    replace (pointReplacements delimited (table.map fun v => (points v.1, points v.2)))
        (text.map .char) =
      (renderChars delimited table text).map .char := by
  have hchar : (Point.char).Injective := fun _ _ => Point.char.inj
  rw [pointReplacements_points, replace_rename hchar, renderChars]

theorem renderOctets_of_decode {text : List Char} (h : Encoding.Utf8.decode octets = .ok text) :
    renderOctets .utf8 delimited table octets =
      .ok (Encoding.Utf8.encode (renderChars delimited table text)) := by
  have hdecode : Encoding.Scheme.decode .utf8 octets = .ok text := h
  rw [renderOctets, renderPoints, hdecode]
  dsimp only
  rw [replace_points, Encoding.Scheme.encode_utf8]

theorem renderOctets_of_decode_error {e : Encoding.DecodeError}
    (h : Encoding.Utf8.decode octets = .error e) :
    renderOctets .utf8 delimited table octets = .error (.decode e) := by
  have hdecode : Encoding.Scheme.decode .utf8 octets = .error e := h
  rw [renderOctets, renderPoints, hdecode]

end ModBuild.Template
