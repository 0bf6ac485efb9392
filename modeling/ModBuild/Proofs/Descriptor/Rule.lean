import ModBuild.Failure
import ModBuild.Proofs.Descriptor.Library

/-!
# Writing and reading relocation rules

A rule is read as the two packages on both sides of its only bar, and any other text is refused
(`reads_rules`).  A package that was read is not empty, holds no bar and has no blanks at its ends
(`IsPackage`).  So it can be written again, with any blanks around it, and is read as before.
-/

namespace ModBuild.Relocation

open Text

/-- A text that a rule can hold on one side as it is. -/
structure IsPackage (s : String) : Prop where
  ne_empty : s ≠ ""
  noBar : '|' ∉ s.toList
  /-- There are no blanks at its ends. -/
  trimmed : Trimmed s.toList

theorem isPackage_trimmed {s : String} (hbar : '|' ∉ s.toList) (hne : trimmed s ≠ "") :
    IsPackage (trimmed s) where
  ne_empty := hne
  noBar := by
    rw [Text.trimmed, String.toList_ofList]
    exact fun hmem => hbar (mem_of_mem_trim hmem)
  trimmed := by
    rw [Text.trimmed, String.toList_ofList]
    exact trimmed_trim s.toList

/-- A bar is no blank. -/
theorem bar_not_mem {s : String} (h : AllBlank s) : '|' ∉ s.toList := fun hmem =>
  absurd (h '|' hmem) (by decide)

/-- The two texts around the only bar are read without the blanks around them. -/
theorem parse?_eq_some_mk_iff (rule source target : String) :
    parse? rule = some ⟨source, target⟩ ↔
      ∃ left right, rule = left ++ "|" ++ right ∧ '|' ∉ left.toList ∧ '|' ∉ right.toList ∧
        source = trimmed left ∧ target = trimmed right ∧ source ≠ "" ∧ target ≠ "" := by
  rw [parse?_eq_some_iff]
  refine exists_congr fun left => exists_congr fun right => ?_
  rw [IsRule, Relocation.mk.injEq, ← trimmed_eq_empty_iff left, ← trimmed_eq_empty_iff right]
  constructor
  · rintro ⟨⟨hrule, hleft, hright, hl, hr⟩, rfl, rfl⟩
    exact ⟨hrule, hleft, hright, rfl, rfl, hl, hr⟩
  · rintro ⟨hrule, hleft, hright, rfl, rfl, hl, hr⟩
    exact ⟨⟨hrule, hleft, hright, hl, hr⟩, rfl, rfl⟩

/-- Two packages are read off a rule with blanks around them. -/
theorem parse?_around {source target w₁ w₂ w₃ w₄ : String} (hsource : IsPackage source)
    (htarget : IsPackage target) (h₁ : AllBlank w₁) (h₂ : AllBlank w₂) (h₃ : AllBlank w₃)
    (h₄ : AllBlank w₄) :
    parse? (w₁ ++ source ++ w₂ ++ "|" ++ w₃ ++ target ++ w₄) = some ⟨source, target⟩ := by
  have hsides : w₁ ++ source ++ w₂ ++ "|" ++ w₃ ++ target ++ w₄ =
      (w₁ ++ source ++ w₂) ++ "|" ++ (w₃ ++ target ++ w₄) := by
    simp only [String.append_assoc]
  refine (parse?_eq_some_mk_iff _ source target).2 ⟨_, _, hsides, ?_, ?_,
    (trimmed_around h₁ hsource.trimmed h₂).symm, (trimmed_around h₃ htarget.trimmed h₄).symm,
    hsource.ne_empty, htarget.ne_empty⟩
  · simp [bar_not_mem h₁, hsource.noBar, bar_not_mem h₂]
  · simp [bar_not_mem h₃, htarget.noBar, bar_not_mem h₄]

theorem isPackage_of_parse? {rule : String} {r : Relocation} (h : parse? rule = some r) :
    IsPackage r.source ∧ IsPackage r.target := by
  obtain ⟨source, target⟩ := r
  obtain ⟨left, right, -, hleft, hright, rfl, rfl, hl, hr⟩ := (parse?_eq_some_mk_iff _ _ _).1 h
  exact ⟨isPackage_trimmed hleft hl, isPackage_trimmed hright hr⟩

/-- A relocation of packages that is written as a rule is read again. -/
theorem parse?_rule {r : Relocation} (hsource : IsPackage r.source) (htarget : IsPackage r.target) :
    parse? r.rule = some r := by
  have hblank : AllBlank " " := by decide
  have hempty : AllBlank "" := by decide
  have hrule : r.rule = "" ++ r.source ++ " " ++ "|" ++ " " ++ r.target ++ "" := by
    rw [rule, String.empty_append, String.append_empty]
    simp only [String.append_assoc]
    rfl
  rw [hrule, parse?_around hsource htarget hempty hblank hblank hempty]

/-- The library with a text that is no rule is refused for it. -/
theorem relocationOf_of_parse?_eq_none {rule : String} {place : Place} {s : Section}
    (h : parse? rule = none) (hs : s.Has "relocate" rule) :
    Library.relocationOf place s = .error ⟨place, .relocation rule⟩ := by
  have htext : s.optionalText place "relocate" = .ok (some rule) :=
    Section.optionalText_eq_ok_iff.2 (Or.inr ⟨rule, hs, rfl⟩)
  simp only [Library.relocationOf, htext, bind, Except.bind, h]

/-- A text is read as a relocation exactly if it is two texts around a single bar that are not
blank.  These count without the blanks around them.  A library with any other text is malformed.
What was read is a pair of packages, and such a pair is read back whatever blanks it is written
with. -/
theorem reads_rules :
    (∀ rule source target, parse? rule = some ⟨source, target⟩ ↔
      ∃ left right, rule = left ++ "|" ++ right ∧ '|' ∉ left.toList ∧ '|' ∉ right.toList ∧
        source = trimmed left ∧ target = trimmed right ∧ source ≠ "" ∧ target ≠ "") ∧
    (∀ rule, parse? rule = none → ∀ label place (s : Section), s.Has "relocate" rule →
      ∃ f : Failure, (Library.relocationOf place s).mapError (.malformed label) = .error f ∧
        f.kind = .malformedDescriptor) ∧
    (∀ rule r, parse? rule = some r →
      IsPackage r.source ∧ IsPackage r.target ∧ parse? r.rule = some r) ∧
    ∀ source target, IsPackage source → IsPackage target →
      ∀ w₁ w₂ w₃ w₄, AllBlank w₁ → AllBlank w₂ → AllBlank w₃ → AllBlank w₄ →
        parse? (w₁ ++ source ++ w₂ ++ "|" ++ w₃ ++ target ++ w₄) = some ⟨source, target⟩ := by
  refine ⟨parse?_eq_some_mk_iff, fun rule hnone label place s hs => ?_, fun rule r h => ?_,
    fun source target hsource htarget w₁ w₂ w₃ w₄ h₁ h₂ h₃ h₄ =>
      parse?_around hsource htarget h₁ h₂ h₃ h₄⟩
  · rw [relocationOf_of_parse?_eq_none hnone hs]
    exact ⟨_, rfl, rfl⟩
  · obtain ⟨hsource, htarget⟩ := isPackage_of_parse? h
    exact ⟨hsource, htarget, parse?_rule hsource htarget⟩

/-- Blanks inside a package stay, and the separator U+001F and the wide space count as blanks. -/
theorem reads_rules_wideBlanks :
    parse? "\t\u3000a b\x1f|\u2028 c.d\n" = some ⟨"a b", "c.d"⟩ := by
  have hsource : IsPackage "a b" := ⟨by decide, by decide, trimmed_trim "a b".toList⟩
  have htarget : IsPackage "c.d" := ⟨by decide, by decide, trimmed_trim "c.d".toList⟩
  obtain ⟨-, -, -, haround⟩ := reads_rules
  exact haround "a b" "c.d" hsource htarget "\t\u3000" "\x1f" "\u2028 " "\n" (by decide) (by decide)
    (by decide) (by decide)

end ModBuild.Relocation
