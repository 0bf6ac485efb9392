import Mathlib.Data.List.Basic
import ModBuild.Text.Field

/-!
# Texts that are taken apart

A text is taken apart at a character into *fields*, or at a longer separator into
*pieces*.  A text that was joined of parts is taken apart into these parts if the
separator is found at their borders only.  For fields this means that no part holds the
character (`fields_intercalate`).  For pieces the separator must not start inside a part
either, not even if it ends behind it (`Apart`, `pieces_intercalate`).  A text can also be
cut in two at the first occurrence of a character (`cutAt?`).
-/

namespace ModBuild.Text

variable {mark : Char}

/-! ## Fields -/

theorem fields_eq_splitOn (mark : Char) (cs : List Char) : fields mark cs = cs.splitOn mark := by
  induction cs with
  | nil => rfl
  | cons c cs ih =>
    rw [fields, List.splitOn_cons_eq_if_modifyHead, ← ih]
    by_cases hc : c = mark
    · simp [hc]
    · simp only [hc, if_false, beq_iff_eq]
      cases hfields : fields mark cs with
      | nil => exact absurd hfields (fields_ne_nil mark cs)
      | cons f fs => rfl

theorem not_mem_of_mem_fields {cs f : List Char} (h : f ∈ fields mark cs) : mark ∉ f := by
  induction cs generalizing f with
  | nil =>
    rw [fields, List.mem_singleton] at h
    simp [h]
  | cons c cs ih =>
    rw [fields] at h
    split at h
    · rcases List.mem_cons.1 h with rfl | h
      · exact List.not_mem_nil
      · exact ih h
    · next hc =>
      cases hfields : fields mark cs with
      | nil => exact absurd hfields (fields_ne_nil mark cs)
      | cons g gs =>
        rw [hfields] at h
        dsimp only at h
        rcases List.mem_cons.1 h with rfl | h
        · have hg : mark ∉ g := ih (by rw [hfields]; exact List.mem_cons_self)
          simp [hg, Ne.symm hc]
        · exact ih (by rw [hfields]; exact List.mem_cons_of_mem g h)

/-- A text without the mark is one field. -/
theorem fields_of_not_mem {cs : List Char} (h : mark ∉ cs) : fields mark cs = [cs] := by
  rw [fields_eq_splitOn, List.splitOn_eq_singleton h]

/-- The fields of a text that is joined of some are these. -/
theorem fields_intercalate {fs : List (List Char)} (h : ∀ f ∈ fs, mark ∉ f) (hne : fs ≠ []) :
    fields mark (List.intercalate [mark] fs) = fs := by
  rw [fields_eq_splitOn, List.splitOn_intercalate mark h hne]

/-- A text is its first field and the others, each behind a mark. -/
theorem eq_append_of_fields {cs f : List Char} {fs : List (List Char)}
    (h : fields mark cs = f :: fs) : cs = f ++ fs.flatMap (mark :: ·) := by
  have hjoin : cs = List.intercalate [mark] (f :: fs) := by rw [← h, intercalate_fields]
  rw [hjoin]
  clear hjoin h
  induction fs generalizing f with
  | nil => simp
  | cons g fs ih => rw [List.intercalate_cons_cons, ih, List.flatMap_cons]; simp

/-! ## The first mark -/

/-- What stands in front of the first mark of a text and what stands behind it. -/
def cutAt? (mark : Char) (cs : List Char) : Option (List Char × List Char) :=
  match cs.dropWhile (· != mark) with
  | [] => none
  | _ :: behind => some (cs.takeWhile (· != mark), behind)

theorem cutAt?_append {front : List Char} (h : mark ∉ front) (behind : List Char) :
    cutAt? mark (front ++ mark :: behind) = some (front, behind) := by
  have hfront : ∀ c ∈ front, (c != mark) = true := fun c hc => bne_iff_ne.2 fun he => h (he ▸ hc)
  simp [cutAt?, List.dropWhile_append_of_pos hfront, List.takeWhile_append_of_pos hfront]

/-- The first mark tells two texts apart in front of it and behind it. -/
theorem append_cons_inj_first {front front' behind behind' : List Char} (h : mark ∉ front)
    (h' : mark ∉ front') (he : front ++ mark :: behind = front' ++ mark :: behind') :
    front = front' ∧ behind = behind' := by
  have hcut := cutAt?_append h behind
  rw [he, cutAt?_append h'] at hcut
  cases hcut
  exact ⟨rfl, rfl⟩

/-- So does the last mark. -/
theorem append_cons_inj_last {front front' behind behind' : List Char} (h : mark ∉ behind)
    (h' : mark ∉ behind') (he : front ++ mark :: behind = front' ++ mark :: behind') :
    front = front' ∧ behind = behind' := by
  have hreverse := congrArg List.reverse he
  simp only [List.reverse_append, List.reverse_cons, List.append_assoc, List.singleton_append]
    at hreverse
  obtain ⟨hbehind, hfront⟩ :=
    append_cons_inj_first (mt List.mem_reverse.1 h) (mt List.mem_reverse.1 h') hreverse
  exact ⟨List.reverse_inj.1 hfront, List.reverse_inj.1 hbehind⟩

/-- A part that stands twice in a text is known from the text around it. -/
theorem append_twice_inj {part part' between behind : List Char}
    (he : part ++ (between ++ (part ++ behind)) = part' ++ (between ++ (part' ++ behind))) :
    part = part' := by
  have hlength := congrArg List.length he
  simp only [List.length_append] at hlength
  exact List.append_inj_left he (by omega)

/-! ## What stands between two texts -/

theorem dropPrefix?_append (start cs : List Char) : (start ++ cs).dropPrefix? start = some cs :=
  List.dropPrefix?_eq_some_iff.2 ⟨start, rfl, by simp⟩

theorem dropSuffix?_append (cs tail : List Char) : (cs ++ tail).dropSuffix? tail = some cs :=
  List.dropSuffix?_eq_some_iff.2 ⟨tail, rfl, by simp⟩

/-! ## Pieces -/

/-- The pieces of a text of which the first `skip` characters belong to a separator that
was found. -/
def piecesFrom (separator : List Char) (skip : Nat) : List Char → List (List Char)
  | [] => [[]]
  | c :: cs =>
    match skip with
    | skip + 1 => piecesFrom separator skip cs
    | 0 =>
      if separator.isPrefixOf (c :: cs) then
        [] :: piecesFrom separator (separator.length - 1) cs
      else
        (piecesFrom separator 0 cs).modifyHead (c :: ·)

/-- The pieces of a text between the occurrences of a separator.  They are looked for from
the left, and none of them overlaps the one before. -/
def pieces (separator text : String) : List String :=
  (piecesFrom separator.toList 0 text.toList).map .ofList

/-- A separator does not start inside a part that it stands behind. -/
def Apart (separator part : List Char) : Prop :=
  ∀ rest, rest <:+ part → rest ≠ [] → ¬ separator <+: rest ++ separator

section Apart

variable {separator part cs : List Char} {c : Char}

theorem apart_nil : Apart separator [] :=
  fun _ hsuffix hne => absurd (List.suffix_nil.1 hsuffix) hne

theorem apart_cons :
    Apart separator (c :: part) ↔ ¬ separator <+: c :: (part ++ separator) ∧
      Apart separator part := by
  constructor
  · intro h
    exact ⟨h _ List.suffix_rfl (List.cons_ne_nil c part),
      fun rest hrest => h rest (hrest.trans (List.suffix_cons c part))⟩
  · rintro ⟨hc, hpart⟩ rest hrest hne
    rcases List.suffix_cons_iff.1 hrest with rfl | hrest
    · exact hc
    · exact hpart rest hrest hne

/-- A separator does not start where its first character does not occur. -/
theorem apart_of_not_mem (h : c ∉ part) : Apart (c :: cs) part := by
  intro rest hsuffix hne hstart
  cases rest with
  | nil => exact hne rfl
  | cons d rest =>
    obtain ⟨rfl, -⟩ := List.cons_prefix_cons.1 hstart
    exact h (hsuffix.mem List.mem_cons_self)

/-- Two line feeds in a row are found nowhere in a text whose lines, but for the first,
are not empty. -/
theorem apart_blankLine (h : ∀ f ∈ (fields '\n' part).tail, f ≠ []) :
    Apart ['\n', '\n'] part := by
  induction part with
  | nil => exact apart_nil
  | cons c part ih =>
    rw [fields] at h
    split at h
    · next hc =>
      -- The line behind a line feed is not the first one, so it is not empty.
      have hne : ∀ f ∈ fields '\n' part, f ≠ [] := h
      refine apart_cons.2 ⟨fun hstart => ?_, ih fun f hf => hne f (List.mem_of_mem_tail hf)⟩
      obtain ⟨-, hstart⟩ := List.cons_prefix_cons.1 hstart
      cases part with
      | nil => exact hne [] (by simp [fields]) rfl
      | cons d part =>
        obtain ⟨rfl, -⟩ := List.cons_prefix_cons.1 hstart
        exact hne [] (by simp [fields]) rfl
    · next hc =>
      refine apart_cons.2 ⟨fun hstart => hc (List.cons_prefix_cons.1 hstart).1.symm, ih ?_⟩
      cases hfields : fields '\n' part with
      | nil => exact absurd hfields (fields_ne_nil '\n' part)
      | cons f fs =>
        rw [hfields] at h
        exact h

end Apart

section Pieces

variable {separator : List Char}

/-- The rest of a separator that was found is skipped. -/
theorem piecesFrom_skip (separator u rest : List Char) :
    piecesFrom separator u.length (u ++ rest) = piecesFrom separator 0 rest := by
  induction u with
  | nil => rfl
  | cons c u ih => rw [List.cons_append, List.length_cons, piecesFrom, ih]

/-- A part with no separator in it is one piece. -/
theorem piecesFrom_of_apart {part : List Char} (h : Apart separator part) :
    piecesFrom separator 0 part = [part] := by
  induction part with
  | nil => rfl
  | cons c part ih =>
    obtain ⟨hc, hpart⟩ := apart_cons.1 h
    have hstart : ¬ separator <+: c :: part := fun hs =>
      hc (hs.trans (List.prefix_append (c :: part) separator))
    simp [piecesFrom, List.isPrefixOf_iff_prefix, hstart, ih hpart]

/-- The first piece ends where the separator stands behind the first part. -/
theorem piecesFrom_append {part : List Char} (hne : separator ≠ []) (h : Apart separator part)
    (rest : List Char) :
    piecesFrom separator 0 (part ++ (separator ++ rest)) =
      part :: piecesFrom separator 0 rest := by
  induction part with
  | nil =>
    cases separator with
    | nil => exact absurd rfl hne
    | cons s ss =>
      simp [piecesFrom, List.isPrefixOf_iff_prefix, piecesFrom_skip]
  | cons c part ih =>
    obtain ⟨hc, hpart⟩ := apart_cons.1 h
    have hstart : ¬ separator <+: c :: (part ++ (separator ++ rest)) := by
      intro hs
      have hlong : c :: (part ++ separator) <+: c :: (part ++ (separator ++ rest)) := by
        simp [← List.append_assoc]
      exact hc (List.prefix_of_prefix_length_le hs hlong (by simp; omega))
    rw [List.cons_append, piecesFrom]
    simp [List.isPrefixOf_iff_prefix, hstart, ih hpart]

theorem piecesFrom_intercalate {parts : List (List Char)} (hsep : separator ≠ [])
    (h : ∀ part ∈ parts, Apart separator part) (hne : parts ≠ []) :
    piecesFrom separator 0 (separator.intercalate parts) = parts := by
  induction parts with
  | nil => exact absurd rfl hne
  | cons part parts ih =>
    have hpart : Apart separator part := h part List.mem_cons_self
    cases parts with
    | nil =>
      rw [List.intercalate_singleton]
      exact piecesFrom_of_apart hpart
    | cons next parts =>
      rw [List.intercalate_cons_cons, List.append_assoc, piecesFrom_append hsep hpart,
        ih (fun p hp => h p (List.mem_cons_of_mem part hp)) (List.cons_ne_nil _ _)]

/-- The pieces of a text that is joined of some are these. -/
theorem pieces_intercalate {separator : String} {parts : List String} (hsep : separator ≠ "")
    (h : ∀ part ∈ parts, Apart separator.toList part.toList) (hne : parts ≠ []) :
    pieces separator (separator.intercalate parts) = parts := by
  have hsep' : separator.toList ≠ [] := fun he => hsep (String.toList_inj.1 (by simpa using he))
  rw [pieces, String.toList_intercalate, piecesFrom_intercalate hsep']
  · simp [Function.comp_def]
  · intro part hpart
    obtain ⟨p, hp, rfl⟩ := List.mem_map.1 hpart
    exact h p hp
  · simpa using hne

end Pieces

example : pieces "; " "a;b; c; " = ["a;b", "c", ""] := by decide +kernel

end ModBuild.Text
