import ModBuild.Proofs.Files.Vacant
import ModBuild.Proofs.Source.Git

/-!
# Clones that fail

Git can leave anything below the target of a clone before it fails.  If the target was vacant, it
is so afterwards, and nothing else has changed.  A clone that does not fail keeps what Git left
(`clone_vacant`).
-/

namespace ModBuild

open ModBuild.Action

/-! ## Runs of Git -/

/-- The next run of Git.  Behind the last there is no Git. -/
def World.nextGitRun (w : World) : GitRun :=
  w.gitRuns.headD ⟨.notInstalled, []⟩

/-- A run of Git puts nothing in the place of the target itself. -/
def GitRun.IsInside (r : GitRun) : Prop :=
  ∀ e ∈ r.written, e.1 ≠ []

namespace Git

variable {w v : World} {target : Path} {written : List (List String × Node)}

theorem runIn_nextRun (w : World) :
    nextRun.runIn w = (.ok w.nextGitRun, { w with gitRuns := w.gitRuns.tail }) := by
  rw [nextRun, runIn_bind_ok (runIn_get w)]
  obtain ⟨_, _, _, _, _, gitRuns, _, _, _, _⟩ := w
  cases gitRuns <;> rfl

/-- The files after a run of Git that leaves something below a target, or nothing. -/
def Leaves (w : World) (target : Path) (written : List (List String × Node))
    (files : FileTree) : Prop :=
  written = [] ∧ files = w.files ∨
    written ≠ [] ∧ ∃ l, w.locate target = .ok l ∧ files = w.files.filled l written

theorem Leaves.congr {files : FileTree} (h : Leaves v target written files)
    (hfiles : v.files = w.files) (hstage : v.stage = w.stage) : Leaves w target written files := by
  rcases h with ⟨hnil, he⟩ | ⟨hne, l, hl, he⟩
  · exact Or.inl ⟨hnil, he.trans hfiles⟩
  · exact Or.inr ⟨hne, l, World.locate_congr hfiles.symm hstage.symm hl, by rw [he, hfiles]⟩

end Git

end ModBuild
