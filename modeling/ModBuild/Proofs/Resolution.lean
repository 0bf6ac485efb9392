import ModBuild.Cli.Report
import ModBuild.Proofs.Artifact.Locate
import ModBuild.Proofs.Source.Git

/-!
# What a resolution changes

A resolution reads files and starts Git.  Its only writes are to a temporary
directory, so it is tidy (`Request.resolve_tidy`).  A condition in which files and log have no
part is preserved by it if Git preserves it (`Request.resolve_ignores`).
-/

namespace ModBuild

open ModBuild.Action

variable {I : World → Prop}

/-! ## Steps that change no files -/

theorem Version.readLine_preserves (I : World → Prop) (file : Path) (start : String) :
    Preserves I (Version.readLine file start) := by
  refine (readFile_preserves _ file).attempt.bind fun outcome => ?_
  split
  · exact Preserves.throw _
  · exact Preserves.throw _
  · split
    · exact Preserves.throw _
    · split
      · exact Preserves.pure _
      · exact Preserves.throw _

theorem Version.ofTree_preserves (hlog : Preserves.IgnoresLog I) {source : SourceControl}
    (settings : Settings) {tree : Path} (hrevision : Preserves I (source.revision tree)) :
    Preserves I (Version.ofTree source settings tree) := by
  refine (readLine_preserves I _ _).bind fun line => hrevision.attempt.bind fun outcome => ?_
  split
  · exact Preserves.throw _
  · exact (Preserves.write_ignores hlog _ _ _).bind fun _ => Preserves.pure _

theorem Descriptor.load_preserves (I : World → Prop) (p : Path) :
    Preserves I (Descriptor.load p) := by
  refine (readFile_preserves _ p).attempt.bind fun outcome => ?_
  split
  · exact Preserves.throw _
  · exact Preserves.throw _
  · exact Preserves.throw _
  · exact Preserves.ofExcept _

/-! ## The version -/

theorem Version.ofClone_below {t : FileTree} {stage : World.Stage} {l : Location}
    (hl : t.DirectoriesTo l) (hdots : ".." ∉ l) (settings : Settings) (branch : String)
    (seconds : Int) :
    Preserves (fun w => w.files.remove l = t ∧ w.stage = stage)
      (Version.ofClone (Git.control seconds) settings branch (.ofLocation l)) := by
  let P : FileTree → World.Stage → Prop := fun t' stage' => t'.remove l = t ∧ stage' = stage
  refine (Preserves.write (P := P) _ _ _).bind fun _ =>
    (Git.clone_below hdots hl _ _ _ _).attempt.bind fun outcome => ?_
  split
  · exact Preserves.throw _
  · exact ofTree_preserves (Preserves.ignoresLog (P := P)) settings (Git.revision_preserves _ _)

theorem Version.resolve_tidy (settings : Settings) (workingDir : Option Path) (core : Core)
    (variantKey : String) (seconds : Int) :
    Tidy (Version.resolve (Git.control seconds) settings workingDir core variantKey) := by
  unfold Version.resolve
  split
  · split
    · exact .of_preserves fun P => Preserves.get_bind fun w hw =>
        (Preserves.write (P := P) _ _ _).bind
          (fun _ => ofTree_preserves Preserves.ignoresLog _ (Git.revision_preserves _ _)) w hw
    · exact withTemporary_tidy fun _ _ _ hl hdots =>
        ofClone_below hl hdots settings variantKey seconds
  · exact .of_preserves fun _ => Preserves.pure _

/-! ## Resolutions -/

theorem Resolution.ofDescriptor_tidy (target : Target) (d : Descriptor) (seconds : Int) :
    Tidy (Resolution.ofDescriptor (Git.control seconds) target d) := by
  refine (Tidy.of_preserves fun _ => Preserves.write _ _ _).bind fun _ =>
    (Version.resolve_tidy _ _ _ _ _).bind fun version =>
      (Tidy.of_preserves fun _ => Artifact.locate_preserves Preserves.ignoresLog _ _ _ _ _).bind
        fun artifact => ?_
  split
  · exact .of_preserves fun _ => Preserves.throw _
  · exact .of_preserves fun _ => (Preserves.write _ _ _).bind fun _ => Preserves.pure _

/-- A resolution leaves the files and the stage as they were. -/
theorem Cli.Request.resolve_tidy (r : Request) (environment : List (String × String)) :
    Tidy (r.resolve environment) := by
  unfold Request.resolve
  split
  · exact .of_preserves fun _ => Preserves.throw _
  · exact (Tidy.of_preserves fun _ => Descriptor.load_preserves _ _).bind fun d =>
      Resolution.ofDescriptor_tidy _ _ _

/-! ## Conditions in which files and log have no part -/

section Source

variable {source : SourceControl} (hfiles : Preserves.IgnoresFiles I)
variable (hlog : Preserves.IgnoresLog I)
variable (hclone : ∀ url branch target shallow,
  Preserves I (source.clone url branch target shallow))
variable (hrevision : ∀ tree, Preserves I (source.revision tree))
include hfiles hlog hclone hrevision

theorem Version.resolve_ignores (settings : Settings) (workingDir : Option Path) (core : Core)
    (variantKey : String) :
    Preserves I (Version.resolve source settings workingDir core variantKey) := by
  unfold Version.resolve
  split
  · split
    · exact .get_bind fun w hw => (Preserves.write_ignores hlog _ _ _).bind
        (fun _ => ofTree_preserves hlog settings (hrevision _)) w hw
    · refine withTemporary_ignores hfiles hlog fun tree =>
        (Preserves.write_ignores hlog _ _ _).bind fun _ =>
          (hclone _ _ tree _).attempt.bind fun outcome => ?_
      split
      · exact .throw _
      · exact ofTree_preserves hlog settings (hrevision tree)
  · exact .pure _

theorem Resolution.ofDescriptor_ignores (target : Target) (d : Descriptor) :
    Preserves I (Resolution.ofDescriptor source target d) := by
  refine (Preserves.write_ignores hlog _ _ _).bind fun _ =>
    (Version.resolve_ignores hfiles hlog hclone hrevision _ _ _ _).bind fun version =>
      (Artifact.locate_preserves hlog _ _ _ _ _).bind fun artifact => ?_
  split
  · exact .throw _
  · exact (Preserves.write_ignores hlog _ _ _).bind fun _ => .pure _

end Source

/-- What Git preserves is preserved by a resolution, if files and log have no part in it. -/
theorem Cli.Request.resolve_ignores (hfiles : Preserves.IgnoresFiles I)
    (hlog : Preserves.IgnoresLog I)
    (hrun : ∀ arguments seconds target, Preserves I (Git.run arguments seconds target))
    (r : Request) (environment : List (String × String)) : Preserves I (r.resolve environment) := by
  unfold Request.resolve
  split
  · exact .throw _
  · refine (Descriptor.load_preserves I _).bind fun d =>
      Resolution.ofDescriptor_ignores hfiles hlog (fun url branch target shallow => ?_)
        (fun tree => ?_) _ d
    · exact fun w hw => Git.clone_of_run (clear_ignores hfiles target) fun log =>
        hrun _ _ _ _ (hlog w log hw)
    · exact fun w hw => Git.revision_of_run (hrun _ _ _ w hw)

end ModBuild
