/-!
# Fields

A text is cut into *fields* at every occurrence of one character.  The character
itself belongs to no field, so a text has one field more than it has
occurrences, and joining the fields gives the text back.
-/

namespace ModBuild.Text

/-- The fields of a text. -/
def fields (mark : Char) : List Char → List (List Char)
  | [] => [[]]
  | c :: cs =>
    if c = mark then
      [] :: fields mark cs
    else
      match fields mark cs with
      | [] => [[c]]
      | f :: fs => (c :: f) :: fs

/-- There is always a field. -/
theorem fields_ne_nil (mark : Char) (cs : List Char) : fields mark cs ≠ [] := by
  cases cs with
  | nil => simp [fields]
  | cons c cs =>
    unfold fields
    split
    · simp
    · split <;> simp

/-- Joining the fields gives the text back. -/
theorem intercalate_fields (mark : Char) (cs : List Char) :
    List.intercalate [mark] (fields mark cs) = cs := by
  induction cs with
  | nil => rfl
  | cons c cs ih =>
    have hne := fields_ne_nil mark cs
    unfold fields
    split
    · next h =>
      cases hf : fields mark cs with
      | nil => exact absurd hf hne
      | cons f fs =>
        rw [hf] at ih
        simp [List.intercalate, List.intersperse, h] at ih ⊢
        exact ih
    · next h =>
      cases hf : fields mark cs with
      | nil => exact absurd hf hne
      | cons f fs =>
        rw [hf] at ih
        cases fs <;> simp_all [List.intercalate]

example : fields '/' "a//b".toList = ["a".toList, [], "b".toList] := by decide

end ModBuild.Text
