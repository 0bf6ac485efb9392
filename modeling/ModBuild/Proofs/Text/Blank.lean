import Mathlib.Data.List.DropRight
import Mathlib.Data.List.TakeWhile
import ModBuild.Text.Blank

/-!
# Trimming

Nothing is left of a text exactly if it is blank (`trim_eq_nil_iff`).  What is left has no
blanks at its ends (`trimmed_trim`), and a text without them stays as it is, whatever blanks
were put around it (`trim_around`).
-/

namespace ModBuild.Text

theorem trimEnd_eq_nil_iff (cs : List Char) :
    trimEnd cs = [] ↔ ∀ c ∈ cs, isBlank c = true := by
  rw [trimEnd, List.reverse_eq_nil_iff, List.dropWhile_eq_nil_iff]
  simp only [List.mem_reverse]

/-- Trimming the front leaves only what the end may lose as well. -/
theorem trim_eq_nil_iff (cs : List Char) : trim cs = [] ↔ ∀ c ∈ cs, isBlank c = true := by
  rw [trim, trimEnd_eq_nil_iff]
  constructor
  · intro h c hc
    rw [← List.takeWhile_append_dropWhile (p := isBlank) (l := cs)] at hc
    rcases List.mem_append.1 hc with hc | hc
    · exact List.mem_takeWhile_imp hc
    · exact h c hc
  · intro h c hc
    exact h c ((List.dropWhile_suffix isBlank).mem hc)

theorem trimmed_eq_empty_iff (s : String) : trimmed s = "" ↔ AllBlank s := by
  rw [trimmed, AllBlank, ← trim_eq_nil_iff]
  constructor
  · intro h
    simpa using congrArg String.toList h
  · intro h
    rw [h]

/-! ## Texts without blanks at their ends -/

/-- A text that neither starts nor ends with a blank. -/
structure Trimmed (cs : List Char) : Prop where
  first : ∀ c ∈ cs.head?, isBlank c = false
  last : ∀ c ∈ cs.getLast?, isBlank c = false

theorem prefix_trimEnd (cs : List Char) : trimEnd cs <+: cs :=
  List.rdropWhile_prefix isBlank cs

theorem mem_of_mem_trim {c : Char} {cs : List Char} (h : c ∈ trim cs) : c ∈ cs := by
  have hstart : c ∈ trimStart cs := (prefix_trimEnd _).mem h
  exact (List.dropWhile_suffix isBlank).mem hstart

theorem trimmed_trim (cs : List Char) : Trimmed (trim cs) where
  first := by
    intro c hc
    obtain ⟨behind, hbehind⟩ := prefix_trimEnd (trimStart cs)
    have hfirst : (trimStart cs).head? = some c := by
      rw [← hbehind, List.head?_append]
      exact Option.or_eq_some_iff.2 (Or.inl hc)
    have hstart := List.head?_dropWhile_not isBlank cs
    rw [trimStart] at hfirst
    rw [hfirst] at hstart
    exact hstart
  last := by
    intro c hc
    obtain ⟨hne, rfl⟩ := List.mem_getLast?_eq_getLast hc
    exact Bool.eq_false_iff.2 (List.rdropWhile_last_not isBlank (trimStart cs) hne)

theorem trimStart_append {before : List Char} (h : ∀ c ∈ before, isBlank c = true)
    (cs : List Char) : trimStart (before ++ cs) = trimStart cs :=
  List.dropWhile_append_of_pos h

theorem trimEnd_append {behind : List Char} (h : ∀ c ∈ behind, isBlank c = true)
    (cs : List Char) : trimEnd (cs ++ behind) = trimEnd cs := by
  rw [trimEnd, List.reverse_append, List.dropWhile_append_of_pos fun c hc =>
    h c (List.mem_reverse.1 hc), trimEnd]

theorem trimStart_eq_self {cs : List Char} (h : ∀ c ∈ cs.head?, isBlank c = false) :
    trimStart cs = cs := by
  cases cs with
  | nil => rfl
  | cons c cs =>
    have hc : isBlank c = false := h c rfl
    simp [trimStart, hc]

theorem trimEnd_eq_self {cs : List Char} (h : ∀ c ∈ cs.getLast?, isBlank c = false) :
    trimEnd cs = cs := by
  have hreverse : trimStart cs.reverse = cs.reverse := by
    refine trimStart_eq_self fun c hc => h c ?_
    rwa [List.head?_reverse] at hc
  rw [trimStart] at hreverse
  rw [trimEnd, hreverse, List.reverse_reverse]

/-- The blanks around a text that has none at its ends are taken off. -/
theorem trim_around {before cs behind : List Char} (hbefore : ∀ c ∈ before, isBlank c = true)
    (hcs : Trimmed cs) (hbehind : ∀ c ∈ behind, isBlank c = true) :
    trim (before ++ cs ++ behind) = cs := by
  cases cs with
  | nil =>
    rw [List.append_nil, trim_eq_nil_iff]
    intro c hc
    exact (List.mem_append.1 hc).elim (hbefore c) (hbehind c)
  | cons c cs =>
    have hfirst : ∀ d ∈ (c :: cs ++ behind).head?, isBlank d = false := hcs.first
    rw [trim, List.append_assoc, trimStart_append hbefore, trimStart_eq_self hfirst,
      trimEnd_append hbehind, trimEnd_eq_self hcs.last]

theorem trimmed_around {before s behind : String} (hbefore : AllBlank before)
    (hs : Trimmed s.toList) (hbehind : AllBlank behind) : trimmed (before ++ s ++ behind) = s := by
  rw [trimmed, String.toList_append, String.toList_append, trim_around hbefore hs hbehind,
    String.ofList_toList]

end ModBuild.Text
