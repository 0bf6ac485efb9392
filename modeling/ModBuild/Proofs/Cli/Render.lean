import ModBuild.Cli.Run
import ModBuild.Proofs.Cli.Rendered
import ModBuild.Proofs.Resolution

/-!
# Rendering a tree of templates

The templates are rendered one after the other, and each is rendered on top of
those before it (`renderFile_step`).  So a run is told by the templates up to the
first that cannot be written (`renderAll_run`).  A resolution changes no files,
which makes this the effect of the whole command (`run_render_files`).
-/

namespace ModBuild.Cli

variable {r : Resolution} {delimited : Bool} {directory output : Path}

/-! ## Runs -/

/-- One template is rendered on top of those before it, or it cannot be written. -/
theorem renderFile_step {w v : World} {pre : List Location} {l : Location} {octets : List UInt8}
    (hw : w.Sound) (hd : directory.IsResolved) (ho : output.IsResolved)
    (hpre : ∀ m ∈ pre, IsApart r delimited directory output m)
    (hl : IsApart r delimited directory output l)
    (hoctets : w.files.octets? (directory.segments ++ l) = some octets)
    (h : Rendered r delimited directory output w.files v.files pre) :
    ∃ v', ((∃ f, (renderFile r.table.entries delimited (directory / ⟨.relative, l⟩)
          (targetOf r delimited output l)).runIn v = (.error f, v')) ∧
        v.files.Grown (targetLocation r delimited output l).dropLast v'.files) ∨
      (renderFile r.table.entries delimited (directory / ⟨.relative, l⟩)
          (targetOf r delimited output l)).runIn v = (.ok (), v') ∧
        Rendered r delimited directory output w.files v'.files (pre ++ [l]) := by
  have hholds : v.Holds (directory / ⟨.relative, l⟩) octets := h.holds hw hd hpre hoctets
  have hresolved : (targetOf r delimited output l).IsResolved := targetOf_isResolved ho hl.1
  obtain ⟨t, v', hgrown, ⟨f, hf, rfl⟩ | ⟨hok, hto, hn, hfiles⟩⟩ :=
    renderFile_cases r.table.entries delimited hholds hresolved
  · exact ⟨v', Or.inl ⟨⟨f, hf⟩, hgrown⟩⟩
  · refine ⟨v', Or.inr ⟨hok, ?_⟩⟩
    rw [hfiles]
    exact h.append hgrown hto hn hoctets

/-- The templates still to come are rendered on top of those before them, up to the
first that cannot be written. -/
theorem renderAll_run {w v : World} {pre ls : List Location} (hw : w.Sound)
    (hd : directory.IsResolved) (ho : output.IsResolved)
    (hapart : ∀ l ∈ pre ++ ls, IsApart r delimited directory output l)
    (hfile : ∀ l ∈ ls, ∃ o, w.files.octets? (directory.segments ++ l) = some o)
    (h : Rendered r delimited directory output w.files v.files pre) :
    match (renderAll r delimited directory output ls).runIn v with
    | (.ok none, w') => Rendered r delimited directory output w.files w'.files (pre ++ ls)
    | (.ok (some report), w') => ∃ l cause, report = cannotRender r delimited output l cause ∧
        Stopped r delimited directory output w.files w'.files (pre ++ ls) l
    | (.error _, w') => ∃ l,
        Stopped r delimited directory output w.files w'.files (pre ++ ls) l := by
  induction ls generalizing pre v with
  | nil =>
    rw [List.append_nil]
    exact h
  | cons l ls ih =>
    -- The run is made a variable first, or taking a hypothesis apart would evaluate it.
    generalize hall : (renderAll r delimited directory output (l :: ls)).runIn v = result
    rw [renderAll] at hall
    obtain ⟨octets, hoctets⟩ := hfile l List.mem_cons_self
    have hpre : ∀ m ∈ pre, IsApart r delimited directory output m :=
      fun m hm => hapart m (by simp [hm])
    have hstep := renderFile_step hw hd ho hpre (hapart l (by simp)) hoctets h
    obtain ⟨v', ⟨⟨f, hf⟩, hgrown⟩ | ⟨hok, hrendered⟩⟩ := hstep
    · have hstopped : Stopped r delimited directory output w.files v'.files (pre ++ l :: ls) l :=
        ⟨pre, ls, v.files, rfl, h, hgrown⟩
      rw [Action.runIn_bind_ok (Action.runIn_attempt _ v), hf] at hall
      subst hall
      cases f with
      | os cause => exact ⟨l, cause, rfl, hstopped⟩
      | _ => exact ⟨l, hstopped⟩
    · rw [Action.runIn_bind_ok (Action.runIn_attempt _ v), hok] at hall
      subst hall
      rw [List.append_cons] at hapart ⊢
      exact ih hapart (fun m hm => hfile m (List.mem_cons_of_mem l hm)) hrendered

/-! ## The command -/

section Command

variable {arguments : List String} {environment : List (String × String)} {request : Request}
variable {verbose bare : Bool} {templates target : String} {w w₁ : World} {resolution : Resolution}

/-- The files after the command for rendering, which had a resolution. -/
theorem renderTemplates_files (hw : w.Sound)
    (hdirectory : w.resolve (.ofString templates) = .ok directory)
    (houtput : w.resolve (.ofString target) = .ok output)
    (hresolution : (request.resolve environment).runIn w = (.ok resolution, w₁))
    (hapart : ∀ l ∈ templatesIn w directory, IsApart resolution (!bare) directory output l) :
    match (renderTemplates request templates target bare environment).runIn w with
    | (.ok report, w') =>
      (report.status = 0 ∧ Rendered resolution (!bare) directory output w.files w'.files
          (templatesIn w directory)) ∨
        (report.status = 1 ∧ w.isDirectory directory = false ∧ w'.files = w.files) ∨
        ∃ l cause, report = cannotRender resolution (!bare) output l cause ∧
          Stopped resolution (!bare) directory output w.files w'.files (templatesIn w directory) l
    | (.error _, w') => ∃ l,
      Stopped resolution (!bare) directory output w.files w'.files (templatesIn w directory) l := by
  generalize hrun : (renderTemplates request templates target bare environment).runIn w = result
  rw [renderTemplates, Action.runIn_bind_ok (Action.runIn_get w), hdirectory,
    Action.runIn_bind_ok (Action.runIn_ofExcept _ w), Action.runIn_bind_ok (Action.runIn_get w),
    houtput, Action.runIn_bind_ok (Action.runIn_ofExcept _ w),
    Action.runIn_bind_ok (Action.runIn_get w)] at hrun
  split at hrun
  · rw [Action.runIn_bind_ok (Action.runIn_attempt _ w), hresolution] at hrun
    dsimp only at hrun
    have hd : directory.IsResolved := hw.isResolved hdirectory
    have hfiles : w₁.files = w.files :=
      ((request.resolve_tidy environment).of_ok hw.files hresolution).1
    have hls : templatesIn w₁ directory = templatesIn w directory := templatesIn_congr hd hfiles
    have hfile : ∀ l ∈ templatesIn w directory,
        ∃ o, w.files.octets? (directory.segments ++ l) = some o :=
      fun l hl => ((mem_templatesIn_iff hw hd).1 hl).2
    have hnil : Rendered resolution (!bare) directory output w.files w₁.files [] := by
      rw [hfiles]
      exact .nil w.files
    have hall := renderAll_run hw hd (hw.isResolved houtput) (by exact hapart) hfile hnil
    rw [Action.runIn_bind_ok (Action.runIn_get w₁), hls] at hrun
    rw [Action.runIn_bind] at hrun
    generalize (renderAll resolution (!bare) directory output (templatesIn w directory)).runIn w₁ =
      outcome at hall hrun
    subst hrun
    obtain ⟨f | report | report, w'⟩ := outcome
    · exact hall
    · exact Or.inl ⟨rfl, hall⟩
    · exact Or.inr (Or.inr hall)
  · next hnot =>
    subst hrun
    exact Or.inr (Or.inl ⟨rfl, by simpa using hnot, rfl⟩)

/-- What the program does to the files if it is asked to render templates, for which
a resolution is found and of which no target lies at the template directory, above
it or below it.  A file that could be opened takes all that is written to it, and no
tree holds links. -/
theorem run_render_files
    (hparse : Invocation.parse arguments =
      .ok (some ⟨verbose, .render request templates target bare⟩))
    (hw : w.Sound)
    (hdirectory : w.resolve (.ofString templates) = .ok directory)
    (houtput : w.resolve (.ofString target) = .ok output)
    (hresolution : (request.resolve environment).runIn w = (.ok resolution, w₁))
    (hapart : ∀ l ∈ templatesIn w directory, IsApart resolution (!bare) directory output l) :
    (templatesIn w directory).Pairwise (· < ·) ∧
      (∀ l, l ∈ templatesIn w directory ↔
        l ≠ [] ∧ ∃ o, w.files.octets? (directory.segments ++ l) = some o) ∧
      match (run arguments environment).runIn w with
      | (.ok report, w') =>
        (report.status = 0 ∧
          Rendered resolution (!bare) directory output w.files w'.files
            (templatesIn w directory) ∧
          (∀ t, Rendered resolution (!bare) directory output w.files t (templatesIn w directory) →
            ∀ q, w'.files.node? q = t.node? q) ∧
          ∀ l ∈ templatesIn w directory, w'.files.octets? (directory.segments ++ l) =
            w.files.octets? (directory.segments ++ l)) ∨
        (report.status = 1 ∧ w.isDirectory directory = false ∧ w'.files = w.files) ∨
        (report.status = 1 ∧ ∃ l cause,
          report.errors = shownLog verbose w'.log ++
            (cannotRender resolution (!bare) output l cause).errors ∧
          Stopped resolution (!bare) directory output w.files w'.files
            (templatesIn w directory) l)
      | (.error _, w') => ∃ l,
        Stopped resolution (!bare) directory output w.files w'.files
          (templatesIn w directory) l := by
  have hd : directory.IsResolved := hw.isResolved hdirectory
  refine ⟨templatesIn_pairwise hw directory, fun _ => mem_templatesIn_iff hw hd, ?_⟩
  have hfiles := renderTemplates_files hw hdirectory houtput hresolution hapart
  generalize hrun : (run arguments environment).runIn w = result
  rw [run, hparse] at hrun
  dsimp only [Command.run] at hrun
  rw [Action.runIn_bind] at hrun
  generalize (renderTemplates request templates target bare environment).runIn w = outcome
    at hfiles hrun
  subst hrun
  obtain ⟨f | report, w'⟩ := outcome
  · exact hfiles
  · rcases hfiles with ⟨hzero, h⟩ | h | ⟨l, cause, rfl, h⟩
    · refine Or.inl ⟨hzero, h, fun t ht => h.node?_eq ht fun l hl =>
        ((mem_templatesIn_iff hw hd).1 hl).2, fun l hl => ?_⟩
      obtain ⟨-, o, ho⟩ := (mem_templatesIn_iff hw hd).1 hl
      exact (FileTree.octets?_eq_some_iff.2 (h.holds hw hd hapart ho).file).trans ho.symm
    · exact Or.inr (Or.inl h)
    · exact Or.inr (Or.inr ⟨rfl, l, cause, rfl, h⟩)

end Command

/-- A world with two templates that have one target.  The second is no text. -/
def sharedTarget : World where
  files := ⟨[
    (["d"], .file ("mod: \x7bpkg: p, cls: C, name: N, id: i, version: '1', " ++
      "dependencies: \x7b\x7d\x7d\numc: \x7bversion: '1.2'\x7d").toUTF8.toList),
    (["t"], .directory),
    (["t", "#ID#"], .file "#NAME#".toUTF8.toList),
    (["t", "i"], .file [0xFF])]⟩
  here := []
  tempRoot := []
  makeTempFault := none
  removeTempFault := none
  gitRuns := []
  answer := .failed (.failed "there is no network")
  closes := 0
  calls := []
  log := []

/-- A command line that renders these templates. -/
def sharedTargetArguments : List String :=
  ["render", "d", "t", "o", "--minecraft", "1.12.2", "--loader", "forge"]

/-- What the command line asks for. -/
def sharedTargetRequest : Request :=
  ⟨"d", "1.12.2", "forge", .shadow, none, none⟩

theorem run_render_files_sharedTarget :
    ∃ resolution w₁, (sharedTargetRequest.resolve []).runIn sharedTarget = (.ok resolution, w₁) ∧
      Rendered resolution true ⟨.slash, ["t"]⟩ ⟨.slash, ["o"]⟩ sharedTarget.files
        ((run sharedTargetArguments []).runIn sharedTarget).2.files [["#ID#"], ["i"]] := by
  have hparse : Invocation.parse sharedTargetArguments =
      .ok (some ⟨false, .render sharedTargetRequest "t" "o" false⟩) := rfl
  have hdirectory : sharedTarget.resolve (.ofString "t") = .ok ⟨.slash, ["t"]⟩ := rfl
  have houtput : sharedTarget.resolve (.ofString "o") = .ok ⟨.slash, ["o"]⟩ := rfl
  have hsound : sharedTarget.Sound :=
    ⟨⟨by decide +kernel, by decide +kernel, by decide +kernel⟩, rfl⟩
  have htemplates : templatesIn sharedTarget ⟨.slash, ["t"]⟩ = [["#ID#"], ["i"]] := by
    decide +kernel
  have hcheck : (match (sharedTargetRequest.resolve []).runIn sharedTarget,
        (run sharedTargetArguments []).runIn sharedTarget with
      | (.ok resolution, _), (.ok report, _) => report.status == 0 &&
        decide (∀ l ∈ templatesIn sharedTarget ⟨.slash, ["t"]⟩,
          IsApart resolution true ⟨.slash, ["t"]⟩ ⟨.slash, ["o"]⟩ l)
      | _, _ => false) = true := by
    decide +kernel
  rcases hresolution : (sharedTargetRequest.resolve []).runIn sharedTarget with ⟨f | resolution, w₁⟩
  · rw [hresolution] at hcheck
    cases hcheck
  · rcases hrun : (run sharedTargetArguments []).runIn sharedTarget with ⟨f | report, w'⟩
    · rw [hresolution, hrun] at hcheck
      cases hcheck
    · rw [hresolution, hrun] at hcheck
      obtain ⟨hzero, hapart⟩ := Bool.and_eq_true_iff.1 hcheck
      obtain ⟨-, -, h⟩ := run_render_files hparse hsound hdirectory houtput hresolution
        (of_decide_eq_true hapart)
      rw [hrun, htemplates] at h
      refine ⟨resolution, w₁, rfl, ?_⟩
      rcases h with ⟨-, h, -⟩ | ⟨hone, -⟩ | ⟨hone, -⟩
      · exact h
      · rw [beq_iff_eq.1 hzero] at hone
        cases hone
      · rw [beq_iff_eq.1 hzero] at hone
        cases hone

end ModBuild.Cli
