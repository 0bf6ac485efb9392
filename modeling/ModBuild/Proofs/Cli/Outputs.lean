import Mathlib.Data.Finset.Card
import ModBuild.Proofs.Cli.Render
import ModBuild.Proofs.Cli.Targets

/-!
# What rendering leaves where

The command for rendering changes what is on the way to the targets of its templates.  This
is below the output directory if every name with the variables replaced leads below it, and
anywhere else otherwise (`run_render_confined`).

A run that renders every template leaves one file at each of their places.  The places need
not be as many as the templates: of several templates with one place the last is found there
(`run_render_outputs`).
-/

namespace ModBuild.Cli

open ModBuild.Action

variable {arguments : List String} {environment : List (String × String)} {request : Request}
variable {verbose bare : Bool} {templates target : String} {w w' : World}

/-! ## Confinement -/

/-- A command that renders changes only what is on the way to a target.  Without a resolution
it does not render. -/
theorem RenderEnds.written (hw : w.Sound) {outcome : Except Failure Report}
    (h : RenderEnds request templates target bare environment w outcome w') :
    w' = w ∨ (∃ f, (request.resolve environment).runIn w = (.error f, w')) ∨
      ∃ directory output resolution w₁,
        Prepared request templates target environment w directory output resolution w₁ ∧
        w.files.WrittenTo
          ((templatesIn w directory).map (targetOf resolution (!bare) output)) w'.files ∧
        ((∃ report, outcome = .ok report ∧ report.status = 0) →
          Renders resolution (!bare) directory output w₁ (templatesIn w directory) w') := by
  cases h with
  | argument _ => exact Or.inl rfl
  | noDirectory _ _ => exact Or.inl rfl
  | unresolved h => exact Or.inr (Or.inl ⟨_, h⟩)
  | stopped h hfails =>
    rw [h.templatesIn_eq hw] at hfails
    have hwritten := hfails.written (hw.isResolved h.target).1 (h.readable hw)
    rw [(h.same hw).1] at hwritten
    exact Or.inr (Or.inr ⟨_, _, _, _, h, hwritten, by rintro ⟨_, ⟨⟩, ⟨⟩⟩⟩)
  | broken h hfails _ =>
    rw [h.templatesIn_eq hw] at hfails
    have hwritten := hfails.written (hw.isResolved h.target).1 (h.readable hw)
    rw [(h.same hw).1] at hwritten
    exact Or.inr (Or.inr ⟨_, _, _, _, h, hwritten, by rintro ⟨_, ⟨⟩, -⟩⟩)
  | done h hrenders =>
    rw [h.templatesIn_eq hw] at hrenders
    have hwritten := (hrenders.written (hw.isResolved h.target).1 (h.readable hw)).2
    rw [(h.same hw).1] at hwritten
    exact Or.inr (Or.inr ⟨_, _, _, _, h, hwritten, fun _ => hrenders⟩)

/-- Names that lead below the output directory keep every change there. -/
theorem changedBelow_of_names {r : Resolution} {delimited : Bool} {output : Path}
    {ls : List Location} (houtput : output.IsResolved)
    (h : w.files.WrittenTo (ls.map (targetOf r delimited output)) w'.files)
    (hnames : ∀ l ∈ ls, (Path.ofString (r.render delimited (templateName l))).LeadsBelow) :
    w.files.ChangedBelow output.segments w'.files := by
  have htargets : w.files.WrittenTo ((ls.map fun l =>
      Path.ofString (r.render delimited (templateName l))).map (output / ·)) w'.files := by
    rw [List.map_map]
    exact h
  refine htargets.changedBelow houtput fun p hp => ?_
  obtain ⟨l, hl, rfl⟩ := List.mem_map.1 hp
  exact hnames l hl

/-- The command changes only what is on the way to a target.  If no name leads elsewhere once
the variables are replaced, this is below the output directory.  A run that succeeds leaves a
file wherever a target leads. -/
theorem run_render_confined
    (hparse : Invocation.parse arguments =
      .ok (some ⟨verbose, .render request templates target bare⟩))
    (hw : w.Sound) {outcome : Except Failure Report}
    (hrun : (run arguments environment).runIn w = (outcome, w')) :
    w'.files = w.files ∨
      (∃ f, (request.resolve environment).runIn w = (.error f, w') ∧
        (w.removeTempFault = none → w'.files = w.files)) ∨
      ∃ directory output resolution w₁,
        Prepared request templates target environment w directory output resolution w₁ ∧
        w.files.WrittenTo
          ((templatesIn w directory).map (targetOf resolution (!bare) output)) w'.files ∧
        ((∀ l ∈ templatesIn w directory,
            (Path.ofString (resolution.render (!bare) (templateName l))).LeadsBelow) →
          w.files.ChangedBelow output.segments w'.files) ∧
        ((∃ report, outcome = .ok report ∧ report.status = 0) →
          ∀ l ∈ templatesIn w directory,
            ∃ o, w'.files.octets? (placeOf resolution (!bare) output l) = some o) := by
  obtain ⟨outcome₀, hcommand, rfl⟩ := of_run hparse hrun
  rcases (renderTemplates_ends hcommand).written hw with
    rfl | ⟨f, hresolution⟩ | ⟨directory, output, resolution, w₁, h, hwritten, hrenders⟩
  · exact Or.inl rfl
  · exact Or.inr (Or.inl ⟨f, hresolution, fun hremove =>
      ((request.resolve_tidy environment).of_removable hw.files hremove hresolution).1⟩)
  · have houtput := hw.isResolved h.target
    refine Or.inr (Or.inr ⟨directory, output, resolution, w₁, h, hwritten,
      changedBelow_of_names houtput hwritten, ?_⟩)
    rintro ⟨report, hreport, hdone⟩ l hl
    cases outcome₀ with
    | error f => cases hreport
    | ok report₀ =>
      cases hreport
      exact (hrenders ⟨report₀, rfl, hdone⟩).file houtput.1 (h.readable hw) hl

theorem parse_sharedTargetArguments : Invocation.parse sharedTargetArguments =
    .ok (some ⟨false, .render sharedTargetRequest "t" "o" false⟩) := rfl

theorem sharedTarget_sound : sharedTarget.Sound :=
  ⟨⟨by decide +kernel, by decide +kernel, by decide +kernel⟩, rfl⟩

/-- Rendering two templates with one target leaves one file. -/
theorem run_sharedTarget :
    ∃ report w', (run sharedTargetArguments []).runIn sharedTarget = (.ok report, w') ∧
      report.status = 0 ∧
      report.output = "Rendered 2 file(s) for 1.12.2-forge into '/o'.\n" ∧
      w'.files.filesBelow ["o"] = [["i"]] := by
  have hgives : (run sharedTargetArguments []).gives sharedTarget (fun report w' =>
      report.status == 0 &&
        report.output == "Rendered 2 file(s) for 1.12.2-forge into '/o'.\n" &&
        w'.files.filesBelow ["o"] == [["i"]]) = true := by
    decide +kernel
  obtain ⟨report, w', hrun, hcheck⟩ := gives_iff.1 hgives
  simp only [Bool.and_eq_true, beq_iff_eq] at hcheck
  exact ⟨report, w', hrun, hcheck.1.1, hcheck.1.2, hcheck.2⟩

theorem templatesIn_sharedTarget :
    templatesIn sharedTarget ⟨.slash, ["t"]⟩ = [["#ID#"], ["i"]] := by
  decide +kernel

/-- The names of both templates come to the same. -/
theorem prepared_sharedTarget :
    ∃ resolution w₁,
      Prepared sharedTargetRequest "t" "o" [] sharedTarget ⟨.slash, ["t"]⟩ ⟨.slash, ["o"]⟩
        resolution w₁ ∧
      ∀ l ∈ templatesIn sharedTarget ⟨.slash, ["t"]⟩,
        resolution.render true (templateName l) = "i" := by
  have hgives : (sharedTargetRequest.resolve []).gives sharedTarget (fun resolution _ =>
      decide (∀ l ∈ templatesIn sharedTarget ⟨.slash, ["t"]⟩,
        resolution.render true (templateName l) = "i")) = true := by
    decide +kernel
  obtain ⟨resolution, w₁, hresolution, hnames⟩ := gives_iff.1 hgives
  exact ⟨resolution, w₁, ⟨rfl, rfl, rfl, hresolution⟩, of_decide_eq_true hnames⟩

theorem run_render_confined_sharedTarget :
    ∃ report w', (run sharedTargetArguments []).runIn sharedTarget = (.ok report, w') ∧
      report.status = 0 ∧ sharedTarget.files.ChangedBelow ["o"] w'.files := by
  obtain ⟨report, w', hrun, hdone, -, hfiles⟩ := run_sharedTarget
  obtain ⟨resolution, w₁, hprepared, hnames⟩ := prepared_sharedTarget
  refine ⟨report, w', hrun, hdone, ?_⟩
  rcases run_render_confined parse_sharedTargetArguments sharedTarget_sound hrun with
    hsame | ⟨f, hf, -⟩ | ⟨_, _, _, _, h, -, hchanged, -⟩
  · have hnone : sharedTarget.files.filesBelow ["o"] = [] := by decide +kernel
    rw [hsame, hnone] at hfiles
    cases hfiles
  · rw [hprepared.resolved] at hf
    cases hf
  · obtain ⟨rfl, rfl, rfl, -⟩ := hprepared.unique h
    refine hchanged fun l hl => ?_
    have hbelow : (Path.ofString "i").LeadsBelow := by decide
    exact (hnames l hl).symm ▸ hbelow

/-- A world with a template that is named after a variable, of which the value is a double
dot. -/
def climbing : World :=
  .offline ⟨[
    (["d"], .file ("mod: \x7bpkg: p, cls: C, name: N, id: '..', version: '1', " ++
      "dependencies: \x7b\x7d\x7d\numc: \x7bversion: '1.2'\x7d").toUTF8.toList),
    (["t"], .directory),
    (["t", "#ID#"], .directory),
    (["t", "#ID#", "f"], .file [0x78])]⟩

theorem run_render_climbs :
    ∃ report w', (run sharedTargetArguments []).runIn climbing = (.ok report, w') ∧
      Invocation.parse sharedTargetArguments =
        .ok (some ⟨false, .render sharedTargetRequest "t" "o" false⟩) ∧
      climbing.Sound ∧ report.status = 0 ∧
      climbing.files.node? ["f"] = none ∧ w'.files.node? ["f"] = some (.file [0x78]) ∧
      ¬ climbing.files.ChangedBelow ["o"] w'.files := by
  have hsound : climbing.Sound :=
    ⟨⟨by decide +kernel, by decide +kernel, by decide +kernel⟩, rfl⟩
  have hbefore : climbing.files.node? ["f"] = none := by decide +kernel
  have hrun : (run sharedTargetArguments []).gives climbing
      (fun report w' => report.status == 0 && w'.files.node? ["f"] == some (.file [0x78])) =
        true := by
    decide +kernel
  obtain ⟨report, w', hrun, hcheck⟩ := gives_iff.1 hrun
  simp only [Bool.and_eq_true, beq_iff_eq] at hcheck
  refine ⟨report, w', hrun, rfl, hsound, hcheck.1, hbefore, hcheck.2, fun h => ?_⟩
  have hchanged : w'.files.node? ["f"] ≠ climbing.files.node? ["f"] := by
    rw [hbefore, hcheck.2]
    nofun
  rcases h ["f"] hchanged with ⟨hbelow, -⟩ | ⟨hto, -⟩
  · exact absurd hbelow (by decide)
  · exact absurd hto (by decide)

/-! ## The files that are left -/

/-- What a run that rendered every template has left. -/
structure Outputs (r : Resolution) (delimited : Bool) (directory output : Path) (w w' : World)
    (ls : List Location) : Prop where
  /-- Every template was written to its place when its turn came, and no template but a later
  one with the same place was written over it. -/
  written : ∀ before l after, ls = before ++ l :: after → ∃ v v' o,
    Renders r delimited directory output w before v ∧
    v.files.octets? (directory.segments ++ l) = some o ∧
    (renderTemplate r delimited directory output l).runIn v = (.ok (), v') ∧
    v'.files.octets? (placeOf r delimited output l) =
      some (rendition r.table.entries delimited o) ∧
    ((∀ m ∈ after, placeOf r delimited output m ≠ placeOf r delimited output l) →
      w'.files.octets? (placeOf r delimited output l) =
        some (rendition r.table.entries delimited o))
  /-- There is a file at every place. -/
  file : ∀ q ∈ (ls.map (placeOf r delimited output)).toFinset, ∃ o, w'.files.octets? q = some o
  /-- Every other file is as it was. -/
  other : ∀ q ∉ (ls.map (placeOf r delimited output)).toFinset,
    w'.files.octets? q = w.files.octets? q
  /-- There are at most as many places as templates. -/
  count : (ls.map (placeOf r delimited output)).toFinset.card ≤ ls.length
  /-- There are as many only if no two templates have one place. -/
  distinct : (ls.map (placeOf r delimited output)).toFinset.card = ls.length ↔
    ∀ l ∈ ls, ∀ m ∈ ls, placeOf r delimited output l = placeOf r delimited output m → l = m

theorem Renders.outputs {r : Resolution} {delimited : Bool} {directory output : Path}
    {ls : List Location} (hroot : output.root ≠ .relative) (hread : Readable directory ls w)
    (hnodup : ls.Nodup) (h : Renders r delimited directory output w ls w') :
    Outputs r delimited directory output w w' ls where
  written := by
    rintro before l after rfl
    obtain ⟨v, v', o, hbefore, ho, hl, hplace, hlast⟩ := h.target hroot hread
    exact ⟨v, v', o, hbefore, ho, hl, hplace, fun hafter => (hlast hafter).trans hplace⟩
  file := by
    intro q hq
    obtain ⟨l, hl, rfl⟩ := List.mem_map.1 (List.mem_toFinset.1 hq)
    exact h.file hroot hread hl
  other := by
    intro q hq
    refine (h.written hroot hread).2.octets?_eq fun p hp he => hq ?_
    obtain ⟨l, hl, rfl⟩ := List.mem_map.1 hp
    exact List.mem_toFinset.2 (List.mem_map.2 ⟨l, hl, he⟩)
  count := by
    rw [← List.length_map (placeOf r delimited output)]
    exact List.toFinset_card_le _
  distinct := by
    rw [← List.nodup_map_iff_inj_on hnodup, ← List.length_map (placeOf r delimited output)]
    exact Multiset.toFinset_card_eq_card_iff_nodup (m := .ofList (ls.map _))

/-- A run that succeeds tells the number of its templates.  Each was written to its place, and
the places are as many as the templates only if no two templates have one place.  Then no
rendering of a template is overwritten by that of another. -/
theorem run_render_outputs
    (hparse : Invocation.parse arguments =
      .ok (some ⟨verbose, .render request templates target bare⟩))
    (hw : w.Sound) {report : Report}
    (hrun : (run arguments environment).runIn w = (.ok report, w')) (hdone : report.status = 0) :
    ∃ directory output resolution w₁,
      Prepared request templates target environment w directory output resolution w₁ ∧
      report.output = "Rendered " ++ Text.decimal (templatesIn w directory).length ++
        " file(s) for " ++ resolution.variant.key ++ " into '" ++ output.toString ++ "'." ++ "\n" ∧
      w₁.files = w.files ∧
      Outputs resolution (!bare) directory output w₁ w' (templatesIn w directory) := by
  obtain ⟨outcome, hcommand, houtcome⟩ := of_run hparse hrun
  cases renderTemplates_ends hcommand with
  | argument _ => cases houtcome
  | noDirectory _ _ =>
    cases houtcome
    cases hdone
  | @unresolved f _ h =>
    cases hf : reported f with
    | error f =>
      rw [hf] at houtcome
      cases houtcome
    | ok report₀ =>
      rw [hf] at houtcome
      cases houtcome
      have hone : report₀.status = 1 := status_of_reported hf
      have hzero : report₀.status = 0 := hdone
      omega
  | stopped _ _ =>
    cases houtcome
    cases hdone
  | broken _ _ _ => cases houtcome
  | @done directory _ _ _ _ h hrenders =>
    cases houtcome
    rw [h.templatesIn_eq hw] at hrenders ⊢
    have hnodup : (templatesIn w directory).Nodup := (templatesIn_pairwise hw directory).imp ne_of_lt
    exact ⟨_, _, _, _, h, rfl, (h.same hw).1,
      hrenders.outputs (hw.isResolved h.target).1 (h.readable hw) hnodup⟩

/-- Both templates are counted, though there is one file. -/
theorem run_render_merges :
    ∃ report w' resolution w₁,
      (run sharedTargetArguments []).runIn sharedTarget = (.ok report, w') ∧
      Prepared sharedTargetRequest "t" "o" [] sharedTarget ⟨.slash, ["t"]⟩ ⟨.slash, ["o"]⟩
        resolution w₁ ∧
      report.status = 0 ∧
      report.output = "Rendered 2 file(s) for 1.12.2-forge into '/o'.\n" ∧
      templatesIn sharedTarget ⟨.slash, ["t"]⟩ = [["#ID#"], ["i"]] ∧
      placeOf resolution true ⟨.slash, ["o"]⟩ ["#ID#"] =
        placeOf resolution true ⟨.slash, ["o"]⟩ ["i"] ∧
      w'.files.filesBelow ["o"] = [["i"]] := by
  obtain ⟨report, w', hrun, hdone, houtput, hfiles⟩ := run_sharedTarget
  obtain ⟨resolution, w₁, hprepared, hnames⟩ := prepared_sharedTarget
  rw [templatesIn_sharedTarget] at hnames
  refine ⟨report, w', resolution, w₁, hrun, hprepared, hdone, houtput, templatesIn_sharedTarget,
    ?_, hfiles⟩
  rw [placeOf, placeOf, targetOf, targetOf, hnames _ (by simp), hnames _ (by simp)]

theorem run_render_outputs_sharedTarget :
    ∃ report w' resolution w₁,
      (run sharedTargetArguments []).runIn sharedTarget = (.ok report, w') ∧ report.status = 0 ∧
      Outputs resolution true ⟨.slash, ["t"]⟩ ⟨.slash, ["o"]⟩ w₁ w' [["#ID#"], ["i"]] := by
  obtain ⟨report, w', hrun, hdone, -⟩ := run_sharedTarget
  obtain ⟨resolution, w₁, hprepared, -⟩ := prepared_sharedTarget
  obtain ⟨_, _, _, _, h, -, -, houtputs⟩ :=
    run_render_outputs parse_sharedTargetArguments sharedTarget_sound hrun hdone
  obtain ⟨rfl, rfl, rfl, rfl⟩ := hprepared.unique h
  rw [templatesIn_sharedTarget] at houtputs
  exact ⟨report, w', _, _, hrun, hdone, houtputs⟩

end ModBuild.Cli
