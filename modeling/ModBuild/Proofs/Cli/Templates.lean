import ModBuild.Cli.Render
import ModBuild.Proofs.Files.Order
import ModBuild.Proofs.Files.Resolved
import ModBuild.Proofs.Template.Points

/-!
# Templates

The templates below a directory are the files there, each once and in order
(`mem_templatesIn_iff`, `templatesIn_pairwise`).

The target of a template that can be rendered holds its rendition, text or not,
and is reached over directories that are there by then.  If the template cannot be
rendered, some of these directories were made and nothing else happened
(`renderFile_cases`).
-/

namespace ModBuild.Cli

/-! ## The templates below a directory -/

/-- The templates are told by the files alone. -/
theorem templatesIn_congr {w w' : World} {directory : Path} (hd : directory.IsResolved)
    (h : w'.files = w.files) : templatesIn w' directory = templatesIn w directory := by
  simp only [templatesIn, World.locate, World.start_eq_nil hd.1, h]

theorem templatesIn_pairwise {w : World} (h : w.Sound) (directory : Path) :
    (templatesIn w directory).Pairwise (· < ·) := by
  unfold templatesIn
  split
  · exact Location.sorted_pairwise_lt (FileTree.nodup_filesBelow h.files.nodup _)
  · exact .nil

theorem mem_templatesIn_iff {w : World} (h : w.Sound) {directory : Path}
    (hd : directory.IsResolved) {l : Location} :
    l ∈ templatesIn w directory ↔
      l ≠ [] ∧ ∃ o, w.files.octets? (directory.segments ++ l) = some o := by
  simp only [FileTree.octets?_eq_some_iff]
  have hfiles := FileTree.mem_filesBelow_iff h.files.nodup (l := directory.segments) (m := l)
  rw [← hfiles]
  cases hlocate : w.locate directory with
  | ok m =>
    obtain ⟨-, rfl, -⟩ := (World.locate_eq_ok_iff hd).1 hlocate
    rw [templatesIn, hlocate]
    exact (Location.sorted_perm _).mem_iff
  | error f =>
    rw [templatesIn, hlocate]
    refine iff_of_false List.not_mem_nil fun hm => ?_
    -- Something below the directory means that the directory can be located.
    obtain ⟨hne, o, ho⟩ := hfiles.1 hm
    have hparent : w.files.node? directory.segments = some .directory :=
      h.files.directoriesTo (by rw [ho]; rfl) _ (List.prefix_append _ _) (by simpa using hne)
    rw [h.locate_eq hd hparent] at hlocate
    cases hlocate

/-! ## Renditions -/

/-- What a file of some octets is rendered to.  What is no text stays as it is. -/
def rendition (table : List (String × String)) (delimited : Bool) (octets : List UInt8) :
    List UInt8 :=
  match Encoding.Utf8.decode octets with
  | .ok text => Encoding.Utf8.encode (Template.renderChars delimited table text)
  | .error _ => octets

variable {table : List (String × String)} {delimited : Bool} {template target : Path}
variable {octets : List UInt8} {w : World}

/-- A file that is text is rendered, and any other is left as it is. -/
theorem renderOctets_cases (table : List (String × String)) (delimited : Bool)
    (octets : List UInt8) :
    Template.renderOctets .utf8 delimited table octets = .ok (rendition table delimited octets) ∨
      ∃ e, Template.renderOctets .utf8 delimited table octets = .error (.decode e) ∧
        rendition table delimited octets = octets := by
  rw [rendition]
  cases hd : Encoding.Utf8.decode octets with
  | ok text => exact Or.inl (Template.renderOctets_of_decode hd)
  | error e => exact Or.inr ⟨e, Template.renderOctets_of_decode_error hd, rfl⟩

/-- Directories are made, and then the target is written or nothing else
happens. -/
theorem renderFile_writes (table : List (String × String)) (delimited : Bool)
    (h : w.Holds template octets) (target : Path) :
    ∃ v, w.Paved target.parent v ∧
      ((∃ f, (renderFile table delimited template target).runIn w = (.error f, v)) ∨
        ∃ l w', v.locate target = .ok l ∧ v.files.node? l ≠ some .directory ∧
          (renderFile table delimited template target).runIn w = (.ok (), w') ∧
          w'.stage = w.stage ∧
          w'.files = v.files.set l (.file (rendition table delimited octets))) := by
  rw [renderFile, Action.runIn_bind_ok (Action.runIn_write _ _ _ w)]
  generalize hlog : ({ w with log := _ } : World) = w₁
  have hmade := Action.ensureDirectories_paved target.parent w₁
  generalize hens : (Action.ensureDirectories target.parent).runIn w₁ = result at hmade
  obtain ⟨outcome, v⟩ := result
  subst hlog
  have hpaved : w.Paved target.parent v := hmade.congr rfl rfl
  cases outcome with
  | error f => exact ⟨v, hpaved, Or.inl ⟨f, Action.runIn_bind_error hens⟩⟩
  | ok _ =>
    have hv : v.Holds template octets := h.paved hpaved
    rw [Action.runIn_bind_ok hens, Action.runIn_bind_ok (Action.readFile_of_file hv.locate hv.file)]
    rcases renderOctets_cases table delimited octets with hr | ⟨e, hr, hsame⟩
    · rw [hr]
      dsimp only
      rcases Action.writeFile_cases target (rendition table delimited octets) v with ⟨f, hf⟩ | ⟨l, hl, hn, hw⟩
      · exact ⟨v, hpaved, Or.inl ⟨f, Action.runIn_bind_error hf⟩⟩
      · exact ⟨v, hpaved, Or.inr ⟨l, _, hl, hn, Action.runIn_bind_ok hw, hpaved.stage, rfl⟩⟩
    · rw [hr, hsame]
      dsimp only
      rw [Action.runIn_bind_ok (Action.runIn_write _ _ _ v)]
      -- The log has no part in what is held or paved.
      generalize hlog : ({ v with log := _ } : World) = v₁
      have hv₁ : v₁.Holds template octets := by
        subst hlog
        exact ⟨hv.isResolved, hv.locate, hv.file⟩
      have hpaved₁ : w.Paved target.parent v₁ := by
        subst hlog
        exact ⟨hpaved.stage, hpaved.same_or_new⟩
      rcases Action.copyFile_cases hv₁ target with ⟨f, hf⟩ | ⟨l, hl, hn, hw⟩
      · exact ⟨v₁, hpaved₁, Or.inl ⟨f, hf⟩⟩
      · exact ⟨v₁, hpaved₁, Or.inr ⟨l, _, hl, hn, hw, hpaved₁.stage, rfl⟩⟩

/-- A target without double dots is written at its own names. -/
theorem renderFile_cases (table : List (String × String)) (delimited : Bool)
    (h : w.Holds template octets) (hp : target.IsResolved) :
    ∃ t w', w.files.Grown target.segments.dropLast t ∧
      ((∃ f, (renderFile table delimited template target).runIn w = (.error f, w') ∧
          w'.files = t) ∨
        (renderFile table delimited template target).runIn w = (.ok (), w') ∧
          t.DirectoriesTo target.segments ∧ t.node? target.segments ≠ some .directory ∧
          w'.files = t.set target.segments (.file (rendition table delimited octets))) := by
  have hparent : target.parent.IsResolved := hp.initial (List.dropLast_prefix _)
  obtain ⟨v, hpaved, ⟨f, hf⟩ | ⟨l, w', hl, hn, hok, -, hfiles⟩⟩ :=
    renderFile_writes table delimited h target
  · exact ⟨v.files, v, hpaved.grown hparent, Or.inl ⟨f, hf, rfl⟩⟩
  · obtain ⟨-, rfl, hto⟩ := (World.locate_eq_ok_iff hp).1 hl
    exact ⟨v.files, w', hpaved.grown hparent, Or.inr ⟨hok, hto, hn, hfiles⟩⟩

end ModBuild.Cli
