import ModBuild.Descriptor.Basic
import ModBuild.Text.Blank

/-!
# Relocation rules

A relocation is written as two packages with a bar between them.  Blanks around
a package do not count, and neither package may be blank.
-/

namespace ModBuild.Relocation

/-- Read a rule, which must hold exactly one bar. -/
def parse? (rule : String) : Option Relocation :=
  match rule.toList.dropWhile (· ≠ '|') with
  | [] => none
  | _ :: right =>
    let source := Text.trim (rule.toList.takeWhile (· ≠ '|'))
    let target := Text.trim right
    if '|' ∈ right ∨ source = [] ∨ target = [] then
      none
    else
      some ⟨.ofList source, .ofList target⟩

/-- Write a relocation as a rule. -/
def rule (r : Relocation) : String :=
  r.source ++ " | " ++ r.target

example : parse? " a.b |c " = some ⟨"a.b", "c"⟩ := by decide +kernel
example : parse? "a|b|c" = none ∧ parse? "a|" = none ∧ parse? "a" = none := by decide +kernel

end ModBuild.Relocation
