import ModBuild.Proofs.Cli.Rendered
import ModBuild.Proofs.Cli.Run
import ModBuild.Proofs.Files.Place
import ModBuild.Proofs.Resolution

/-!
# Where templates are rendered to

A template is written to the place of its target, wherever that is: at a template, outside
the output directory, or where another template was written.  Nothing else changes but for
directories on the way there (`renderTemplate_written`).

A run renders the templates one after the other (`Renders`), up to the first that fails
(`renderAll_cases`).  So every location that it changes is on the way to a target, and a
template that was rendered is at its place until another one is written there
(`Renders.written`, `Renders.target`).

The command renders once it has the directories and a resolution.  How it can end is said in
one place (`renderTemplates_ends`).
-/

namespace ModBuild.Cli

open ModBuild.Action

variable (r : Resolution) (delimited : Bool) (directory output : Path)

/-! ## Runs -/

/-- Render a template to its target. -/
def renderTemplate (l : Location) : Action Unit :=
  renderFile r.table.entries delimited (directory / ⟨.relative, l⟩) (targetOf r delimited output l)

/-- Templates are rendered one after the other. -/
inductive Renders : World → List Location → World → Prop
  | nil (w : World) : Renders w [] w
  | cons {w v w' : World} {l : Location} {ls : List Location} :
      (renderTemplate r delimited directory output l).runIn w = (.ok (), v) →
      Renders v ls w' → Renders w (l :: ls) w'

/-- A run comes to a template that fails. -/
def FailsAt (w : World) (ls : List Location) (f : Failure) (w' : World) : Prop :=
  ∃ before l after v, ls = before ++ l :: after ∧
    Renders r delimited directory output w before v ∧
    (renderTemplate r delimited directory output l).runIn v = (.error f, w')

/-- A run renders every template, or it comes to one that fails and tells why. -/
theorem renderAll_cases (ls : List Location) (w : World) :
    match (renderAll r delimited directory output ls).runIn w with
    | (.ok none, w') => Renders r delimited directory output w ls w'
    | (.ok (some report), w') => ∃ l cause, report = cannotRender r delimited output l cause ∧
        FailsAt r delimited directory output w ls (.os cause) w'
    | (.error f, w') => FailsAt r delimited directory output w ls f w' ∧ ∀ cause, f ≠ .os cause := by
  induction ls generalizing w with
  | nil => exact .nil w
  | cons l ls ih =>
    generalize hall : (renderAll r delimited directory output (l :: ls)).runIn w = result
    rw [renderAll, runIn_bind_ok (runIn_attempt _ w)] at hall
    generalize hone : (renderFile r.table.entries delimited (directory / ⟨.relative, l⟩)
      (targetOf r delimited output l)).runIn w = one at hall
    obtain ⟨f | _, v⟩ := one
    · have hfails : FailsAt r delimited directory output w (l :: ls) f v :=
        ⟨[], l, ls, w, rfl, .nil w, hone⟩
      subst hall
      cases f with
      | os cause => exact ⟨l, cause, rfl, hfails⟩
      | _ => exact ⟨hfails, nofun⟩
    · have hlater {f : Failure} {w' : World}
          (h : FailsAt r delimited directory output v ls f w') :
          FailsAt r delimited directory output w (l :: ls) f w' := by
        obtain ⟨before, m, after, u, rfl, hbefore, hm⟩ := h
        exact ⟨l :: before, m, after, u, rfl, .cons hone hbefore, hm⟩
      have hrest := ih v
      change (renderAll r delimited directory output ls).runIn v = result at hall
      subst hall
      generalize (renderAll r delimited directory output ls).runIn v = rest at hrest
      obtain ⟨f | report | report, w'⟩ := rest
      · exact ⟨hlater hrest.1, hrest.2⟩
      · exact .cons hone hrest
      · obtain ⟨m, cause, hreport, hfails⟩ := hrest
        exact ⟨m, cause, hreport, hlater hfails⟩

variable {r delimited directory output}
variable {w v w' : World} {l : Location} {ls : List Location}

namespace Renders

theorem append_iff {before after : List Location} :
    Renders r delimited directory output w (before ++ after) w' ↔
      ∃ v, Renders r delimited directory output w before v ∧
        Renders r delimited directory output v after w' := by
  induction before generalizing w with
  | nil =>
    constructor
    · exact fun h => ⟨w, .nil w, h⟩
    · rintro ⟨_, ⟨⟩, h⟩
      exact h
  | cons l before ih =>
    constructor
    · rintro ⟨⟩
      next u hl h =>
      obtain ⟨v, hbefore, hafter⟩ := ih.1 h
      exact ⟨v, .cons hl hbefore, hafter⟩
    · rintro ⟨v, ⟨⟩, hafter⟩
      next u hl hbefore => exact .cons hl (ih.2 ⟨v, hbefore, hafter⟩)

end Renders

/-! ## Places -/

variable (r delimited output) in
/-- The place that a template is rendered to. -/
def placeOf (l : Location) : Location :=
  (targetOf r delimited output l).place

/-- The templates can be read. -/
def Readable (directory : Path) (ls : List Location) (w : World) : Prop :=
  ∀ l ∈ ls, ∃ o, w.Holds (directory / ⟨.relative, l⟩) o

/-- The files of a sound world can be read. -/
theorem readable_templatesIn (hw : w.Sound) (hd : directory.IsResolved) :
    Readable directory (templatesIn w directory) w := by
  intro l hl
  obtain ⟨-, o, ho⟩ := (mem_templatesIn_iff hw hd).1 hl
  have hfile : w.files.node? (directory / ⟨.relative, l⟩ : Path).segments = some (.file o) :=
    FileTree.octets?_eq_some_iff.1 ho
  have hresolved : (directory / ⟨.relative, l⟩ : Path).IsResolved :=
    ⟨hd.1, hw.files.not_mem_dots hfile⟩
  exact ⟨o, hresolved, hw.locate_eq hresolved hfile, hfile⟩

theorem Readable.writtenTo {ps : List Path} (h : Readable directory ls w)
    (hstage : v.stage = w.stage) (hv : w.files.WrittenTo ps v.files) : Readable directory ls v := by
  intro l hl
  obtain ⟨o, ho⟩ := h l hl
  exact ho.writtenTo hstage hv

/-- A template is written to its place, or it fails.  Nothing else changes but for directories
on the way to the place. -/
theorem renderTemplate_written (hroot : output.root ≠ .relative) {o : List UInt8}
    (ho : w.Holds (directory / ⟨.relative, l⟩) o) {outcome : Except Failure Unit}
    (h : (renderTemplate r delimited directory output l).runIn w = (outcome, w')) :
    w'.stage = w.stage ∧ w.files.WrittenTo [targetOf r delimited output l] w'.files ∧
      (outcome = .ok () → w'.files.octets? (placeOf r delimited output l) =
        some (rendition r.table.entries delimited o)) := by
  have htarget : (targetOf r delimited output l).root ≠ .relative := Path.div_root_ne hroot _
  obtain ⟨u, hpaved, ⟨f, hf⟩ | ⟨m, w₁, hm, hn, hok, hstage, hfiles⟩⟩ :=
    renderFile_writes r.table.entries delimited ho (targetOf r delimited output l)
  · rw [renderTemplate, hf] at h
    cases h
    exact ⟨hpaved.stage, hpaved.writtenTo htarget, nofun⟩
  · rw [renderTemplate, hok] at h
    cases h
    obtain rfl := World.locate_place htarget hm
    rw [hfiles]
    refine ⟨hstage, (hpaved.writtenTo htarget).trans (.set hn (List.mem_singleton_self _)),
      fun _ => ?_⟩
    rw [FileTree.octets?_eq_some_iff, FileTree.node?_set _ _ _ _ (FileTree.ne_nil_of_node? hn)]
    exact if_pos rfl

namespace Renders

/-- A run changes nothing but what is on the way to a target. -/
theorem written (hroot : output.root ≠ .relative) (hread : Readable directory ls w)
    (h : Renders r delimited directory output w ls w') :
    w'.stage = w.stage ∧
      w.files.WrittenTo (ls.map (targetOf r delimited output)) w'.files := by
  induction h with
  | nil w => exact ⟨rfl, .refl _ _⟩
  | cons hl _ ih =>
    obtain ⟨o, ho⟩ := hread _ List.mem_cons_self
    obtain ⟨hstage, hone, -⟩ := renderTemplate_written hroot ho hl
    have hrest := fun m hm => hread m (List.mem_cons_of_mem _ hm)
    obtain ⟨hstage', hlater⟩ := ih (Readable.writtenTo hrest hstage hone)
    exact ⟨hstage'.trans hstage, (hone.mono (by simp)).trans (hlater.mono (by simp))⟩

/-- A template that was rendered was read when its turn came.  It is at its place until another
one is written there. -/
theorem target (hroot : output.root ≠ .relative) {before after : List Location}
    (hread : Readable directory (before ++ l :: after) w)
    (h : Renders r delimited directory output w (before ++ l :: after) w') :
    ∃ v v' o, Renders r delimited directory output w before v ∧
      v.files.octets? (directory.segments ++ l) = some o ∧
      (renderTemplate r delimited directory output l).runIn v = (.ok (), v') ∧
      v'.files.octets? (placeOf r delimited output l) =
        some (rendition r.table.entries delimited o) ∧
      ((∀ m ∈ after, placeOf r delimited output m ≠ placeOf r delimited output l) →
        w'.files.octets? (placeOf r delimited output l) =
          v'.files.octets? (placeOf r delimited output l)) := by
  obtain ⟨v, hbefore, hrest⟩ := append_iff.1 h
  have hread₁ : Readable directory before w := fun m hm => hread m (by simp [hm])
  have hread₂ : Readable directory (l :: after) w :=
    fun m hm => hread m (List.mem_append_right before hm)
  obtain ⟨hstage, hwritten⟩ := hbefore.written hroot hread₁
  have hread₃ := hread₂.writtenTo hstage hwritten
  obtain ⟨o, ho⟩ := hread₃ l List.mem_cons_self
  cases hrest with
  | @cons _ v' _ _ _ hl hafter =>
    obtain ⟨hstage', hone, hplace⟩ := renderTemplate_written hroot ho hl
    have hread₄ : Readable directory after v' :=
      Readable.writtenTo (fun m hm => hread₃ m (List.mem_cons_of_mem l hm)) hstage' hone
    refine ⟨v, v', o, hbefore, FileTree.octets?_eq_some_iff.2 ho.file, hl, hplace rfl,
      fun hlater => (hafter.written hroot hread₄).2.octets?_eq ?_⟩
    intro p hp
    obtain ⟨m, hm, rfl⟩ := List.mem_map.1 hp
    exact hlater m hm

/-- There is a file at the place of every template. -/
theorem file (hroot : output.root ≠ .relative) (hread : Readable directory ls w)
    (h : Renders r delimited directory output w ls w') (hl : l ∈ ls) :
    ∃ o, w'.files.octets? (placeOf r delimited output l) = some o := by
  obtain ⟨before, m, after, rfl, hm, hafter⟩ :=
    exists_last (f := placeOf r delimited output) ⟨l, hl, rfl⟩
  obtain ⟨-, v', o, -, -, -, ho, hlast⟩ := h.target hroot hread
  rw [← hm, hlast fun k hk => by rw [hm]; exact hafter k hk]
  exact ⟨_, ho⟩

end Renders

/-- A run that comes to a template that fails has changed nothing but what is on the way to a
target either. -/
theorem FailsAt.written (hroot : output.root ≠ .relative) (hread : Readable directory ls w)
    {f : Failure} (h : FailsAt r delimited directory output w ls f w') :
    w.files.WrittenTo (ls.map (targetOf r delimited output)) w'.files := by
  obtain ⟨before, l, after, v, rfl, hbefore, hl⟩ := h
  have hread₁ : Readable directory before w := fun m hm => hread m (by simp [hm])
  obtain ⟨hstage, hwritten⟩ := hbefore.written hroot hread₁
  obtain ⟨o, ho⟩ := hread.writtenTo hstage hwritten l (by simp)
  obtain ⟨-, hone, -⟩ := renderTemplate_written hroot ho hl
  exact (hwritten.mono (by simp)).trans (hone.mono (by simp))

/-! ## The command -/

section Command

variable (request : Request) (templates target : String) (bare : Bool)
variable (environment : List (String × String))

/-- The command has come so far that it renders. -/
structure Prepared (w : World) (directory output : Path) (resolution : Resolution) (w₁ : World) :
    Prop where
  templates : w.resolve (.ofString templates) = .ok directory
  target : w.resolve (.ofString target) = .ok output
  there : w.isDirectory directory = true
  resolved : (request.resolve environment).runIn w = (.ok resolution, w₁)

/-- How the command can end. -/
inductive RenderEnds (w : World) : Except Failure Report → World → Prop
  /-- One of the directories has no name that could be that of a directory. -/
  | argument (h : (Path.ofString templates).hasNull = true ∨ (Path.ofString target).hasNull = true) :
      RenderEnds w (.error .nullInPath) w
  | noDirectory {directory : Path} (h : w.resolve (.ofString templates) = .ok directory)
      (hnot : w.isDirectory directory = false) :
      RenderEnds w
        (.ok (.failed ("template directory '" ++ directory.toString ++ "' does not exist."))) w
  | unresolved {f : Failure} {w' : World}
      (h : (request.resolve environment).runIn w = (.error f, w')) :
      RenderEnds w (reported f) w'
  /-- A template cannot be written. -/
  | stopped {directory output : Path} {resolution : Resolution} {w₁ w' : World} {l : Location}
      {cause : OsError}
      (h : Prepared request templates target environment w directory output resolution w₁)
      (hfails : FailsAt resolution (!bare) directory output w₁ (templatesIn w₁ directory)
        (.os cause) w') :
      RenderEnds w (.ok (cannotRender resolution (!bare) output l cause)) w'
  /-- A template fails in a way that is not reported. -/
  | broken {directory output : Path} {resolution : Resolution} {w₁ w' : World} {f : Failure}
      (h : Prepared request templates target environment w directory output resolution w₁)
      (hfails : FailsAt resolution (!bare) directory output w₁ (templatesIn w₁ directory) f w')
      (hother : ∀ cause, f ≠ .os cause) :
      RenderEnds w (.error f) w'
  | done {directory output : Path} {resolution : Resolution} {w₁ w' : World}
      (h : Prepared request templates target environment w directory output resolution w₁)
      (hrenders : Renders resolution (!bare) directory output w₁ (templatesIn w₁ directory) w') :
      RenderEnds w (.ok (.done ("Rendered " ++ Text.decimal (templatesIn w₁ directory).length ++
        " file(s) for " ++ resolution.variant.key ++ " into '" ++ output.toString ++ "'."))) w'

variable {request templates target bare environment}

theorem resolve_eq_error {p : Path} {f : Failure} (h : w.resolve p = .error f) :
    f = .nullInPath ∧ p.hasNull = true := by
  rw [World.resolve] at h
  split at h
  · next hnull =>
    cases h
    exact ⟨rfl, hnull⟩
  · cases h

theorem renderTemplates_ends {outcome : Except Failure Report}
    (h : (renderTemplates request templates target bare environment).runIn w = (outcome, w')) :
    RenderEnds request templates target bare environment w outcome w' := by
  rw [renderTemplates, runIn_bind_ok (runIn_get w), runIn_bind, runIn_ofExcept] at h
  cases hdirectory : w.resolve (.ofString templates) with
  | error f =>
    rw [hdirectory] at h
    cases h
    obtain ⟨rfl, hnull⟩ := resolve_eq_error hdirectory
    exact .argument (Or.inl hnull)
  | ok directory =>
    rw [hdirectory] at h
    dsimp only at h
    rw [runIn_bind_ok (runIn_get w), runIn_bind, runIn_ofExcept] at h
    cases houtput : w.resolve (.ofString target) with
    | error f =>
      rw [houtput] at h
      cases h
      obtain ⟨rfl, hnull⟩ := resolve_eq_error houtput
      exact .argument (Or.inr hnull)
    | ok output =>
      rw [houtput] at h
      dsimp only at h
      rw [runIn_bind_ok (runIn_get w)] at h
      split at h
      · next hthere =>
        rw [runIn_bind_ok (runIn_attempt _ w)] at h
        rcases hresolution : (request.resolve environment).runIn w with ⟨f | resolution, w₁⟩
        · rw [hresolution] at h
          dsimp only at h
          rw [runIn_reportFailure] at h
          cases h
          exact .unresolved hresolution
        · have hprepared : Prepared request templates target environment w directory output
              resolution w₁ := ⟨hdirectory, houtput, hthere, hresolution⟩
          rw [hresolution] at h
          dsimp only at h
          rw [runIn_bind_ok (runIn_get w₁), runIn_bind] at h
          have hall := renderAll_cases resolution (!bare) directory output
            (templatesIn w₁ directory) w₁
          generalize (renderAll resolution (!bare) directory output
            (templatesIn w₁ directory)).runIn w₁ = result at h hall
          obtain ⟨f | report | report, v⟩ := result
          · cases h
            exact .broken hprepared hall.1 hall.2
          · cases h
            exact .done hprepared hall
          · cases h
            obtain ⟨l, cause, rfl, hfails⟩ := hall
            exact .stopped hprepared hfails
      · next hnot =>
        cases h
        exact .noDirectory hdirectory (by simpa using hnot)

namespace Prepared

variable {resolution : Resolution} {w₁ : World}

/-- There is one way to come so far. -/
theorem unique {directory' output' : Path} {resolution' : Resolution} {w₁' : World}
    (h : Prepared request templates target environment w directory output resolution w₁)
    (h' : Prepared request templates target environment w directory' output' resolution' w₁') :
    directory' = directory ∧ output' = output ∧ resolution' = resolution ∧ w₁' = w₁ := by
  obtain ⟨htemplates, htarget, -, hresolved⟩ := h
  obtain ⟨htemplates', htarget', -, hresolved'⟩ := h'
  rw [htemplates] at htemplates'
  rw [htarget] at htarget'
  rw [hresolved] at hresolved'
  cases htemplates'
  cases htarget'
  cases hresolved'
  exact ⟨rfl, rfl, rfl, rfl⟩

/-- A resolution changes no files. -/
theorem same (h : Prepared request templates target environment w directory output resolution w₁)
    (hw : w.Sound) : w₁.files = w.files ∧ w₁.stage = w.stage :=
  (request.resolve_tidy environment).of_ok hw.files h.resolved

theorem templatesIn_eq
    (h : Prepared request templates target environment w directory output resolution w₁)
    (hw : w.Sound) : templatesIn w₁ directory = templatesIn w directory :=
  templatesIn_congr (hw.isResolved h.templates) (h.same hw).1

theorem readable
    (h : Prepared request templates target environment w directory output resolution w₁)
    (hw : w.Sound) : Readable directory (templatesIn w directory) w₁ := by
  obtain ⟨hfiles, hstage⟩ := h.same hw
  have hsame : w.files.WrittenTo [] w₁.files := by
    rw [hfiles]
    exact .refl _ _
  exact (readable_templatesIn hw (hw.isResolved h.templates)).writtenTo hstage hsame

end Prepared

end Command

end ModBuild.Cli
