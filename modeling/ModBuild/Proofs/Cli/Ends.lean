import ModBuild.Proofs.Artifact.Failing
import ModBuild.Proofs.Cli.Stages
import ModBuild.Proofs.Cli.Targets
import ModBuild.Proofs.Resolution.Failing

/-!
# How the program ends

A command that is carried out ends with a report: the status is 0, or it is 1 and one message
is printed.  A failure gets past a command in few ways only, and they are all listed
(`Escapes`).  A resolution that fails leaves no output and no files (`run_ends`).
-/

namespace ModBuild

open ModBuild.Action

namespace Cli

/-! ## Getting the binary -/

theorem copyStream_failsOnly (s : Stream) (l : Location) (fuel : Nat) :
    FailsOnly Failure.IsReported (copyStream s l fuel) := by
  induction fuel generalizing s with
  | zero => exact .pure _
  | succ fuel ih =>
    refine (s.read_failsOnly pieceSize).bind fun r => ?_
    obtain ⟨octets, s'⟩ := r
    dsimp only
    split
    · exact .pure _
    · exact (append_failsOnly _ _).bind fun _ => ih s'

theorem writeStream_failsOnly (s : Stream) (p : Path) :
    FailsOnly Failure.IsAnswered (writeStream s p) := by
  refine .get_bind fun w => ((writeFile_failsOnly p _).mono fun f => Failure.OfPath.isAnswered).bind
    fun l => (copyStream_failsOnly s l _).attempt_bind (fun _ => .pure _) fun f hf => ?_
  exact ((removeFile_failsOnly p).mono fun f => Failure.OfPath.isAnswered).bind fun _ =>
    .throw (Or.inl hf)

theorem fetchArtifact_failsOnly (r : Resolution) (p : Path) :
    FailsOnly Failure.IsAnswered (fetchArtifact r p) := by
  refine (r.artifact.openStream_failsOnly _).bind fun s => ?_
  have hplace : FailsOnly Failure.IsAnswered (place s p) :=
    ((ensureDirectories_failsOnly p.parent).mono fun f => Failure.OfPath.isAnswered).bind fun _ =>
      writeStream_failsOnly s p
  refine hplace.attempt_bind (fun _ => ?_) fun f hf => ?_
  · exact s.close_failsOnly.bind fun _ => .ofExcept (by nofun)
  · exact s.close_failsOnly.bind fun _ => .throw hf

/-! ## Rendering -/

theorem renderFile_failsOnly (table : List (String × String)) (delimited : Bool)
    (template target : Path) :
    FailsOnly (Failure.OfPath (template.hasNull || target.hasNull))
      (renderFile table delimited template target) := by
  have htemplate (f : Failure) (hf : f.OfPath template.hasNull) :
      f.OfPath (template.hasNull || target.hasNull) := hf.mono fun h => by rw [h, Bool.true_or]
  have htarget (f : Failure) (hf : f.OfPath target.hasNull) :
      f.OfPath (template.hasNull || target.hasNull) := hf.mono fun h => by rw [h, Bool.or_true]
  have hparent (f : Failure) (hf : f.OfPath target.parent.hasNull) :
      f.OfPath (template.hasNull || target.hasNull) :=
    htarget f (hf.mono (Path.hasNull_of_prefix (List.dropLast_prefix _)))
  refine (FailsOnly.write _ _ _).bind fun _ => ((ensureDirectories_failsOnly _).mono hparent).bind
    fun _ => ((readFile_failsOnly _).mono htemplate).bind fun octets => ?_
  rcases renderOctets_cases table delimited octets with hr | ⟨e, hr, -⟩ <;> rw [hr]
  · exact ((writeFile_failsOnly _ _).mono htarget).bind fun _ => .pure _
  · exact (FailsOnly.write _ _ _).bind fun _ => copyFile_failsOnly template target

/-- A template that can be read fails for a reason of the file system, or because its target
holds the character U+0000. -/
theorem FailsAt.null {r : Resolution} {delimited : Bool} {directory output : Path} {w w' : World}
    {ls : List Location} {f : Failure} (hread : Readable directory ls w)
    (h : FailsAt r delimited directory output w ls f w') (hother : ∀ cause, f ≠ .os cause) :
    f = .nullInPath ∧ ∃ l ∈ ls, (targetOf r delimited output l).hasNull = true := by
  obtain ⟨before, l, after, v, rfl, -, hl⟩ := h
  obtain ⟨o, ho⟩ := hread l (by simp)
  have htemplate : (directory / ⟨.relative, l⟩ : Path).hasNull = false :=
    (World.locate_eq_ok_iff_walk.1 ho.locate).1
  have hfails := renderFile_failsOnly _ _ _ _ _ _ _ hl
  rw [htemplate, Bool.false_or] at hfails
  rcases hfails with ⟨cause, rfl⟩ | ⟨rfl, hnull⟩
  · exact absurd rfl (hother cause)
  · exact ⟨rfl, l, by simp, hnull⟩

/-! ## Commands -/

/-- What a command is told. -/
def Command.request : Command → Request
  | vars r => r
  | render r _ _ _ => r
  | fetch r _ => r

/-- The ways in which a failure gets past a command. -/
inductive Escapes (environment : List (String × String)) (w : World) : Command → Failure → Prop
  /-- A scalar of the descriptor has no value, and not only because it is out of range. -/
  | scalar {command : Command} {f : Failure} (hscalar : f.IsScalar)
      (hload : ((Descriptor.load (.ofString command.request.descriptor)).runIn w).1 = .error f) :
      Escapes environment w command f
  /-- The template directory or the output directory holds the character U+0000. -/
  | argument {request : Request} {templates target : String} {bare : Bool}
      (h : (Path.ofString templates).hasNull = true ∨ (Path.ofString target).hasNull = true) :
      Escapes environment w (.render request templates target bare) .nullInPath
  /-- The target of a template holds the character U+0000. -/
  | target {request : Request} {templates target : String} {bare : Bool}
      {directory output : Path} {resolution : Resolution} {w₁ : World} {l : Location}
      (h : Prepared request templates target environment w directory output resolution w₁)
      (hl : l ∈ templatesIn w directory)
      (hnull : (targetOf resolution (!bare) output l).hasNull = true) :
      Escapes environment w (.render request templates target bare) .nullInPath

/-- A command ends with success after a resolution, or with one message, or a failure gets past
it. -/
def Ended (environment : List (String × String)) (w : World) (command : Command)
    (outcome : Except Failure Report) : Prop :=
  (∃ report, outcome = .ok report ∧ report.status = 0 ∧
      ∃ resolution w₁, (command.request.resolve environment).runIn w = (.ok resolution, w₁)) ∨
    (∃ message, outcome = .ok (.failed message)) ∨
    ∃ f, outcome = .error f ∧ Escapes environment w command f

variable {environment : List (String × String)} {w w' w₁ : World} {command : Command}
variable {request : Request} {f : Failure} {outcome : Except Failure Report}

theorem reported_of_isReported (h : f.IsReported) : reported f = .ok (.failed f.message) :=
  if_pos h

/-- A report on a resolution that failed has one message, or the failure gets past the
command. -/
theorem ended_reported (command : Command)
    (h : (command.request.resolve environment).runIn w = (.error f, w₁)) :
    Ended environment w command (reported f) := by
  by_cases hf : f.IsReported
  · exact Or.inr (Or.inl ⟨_, reported_of_isReported hf⟩)
  · obtain ⟨hscalar, hload⟩ := (Request.resolve_failed h).resolve_left hf
    exact Or.inr (Or.inr ⟨f, if_neg hf, .scalar hscalar hload⟩)

theorem runIn_printVariables (r : Request) (environment : List (String × String)) (w : World) :
    (printVariables r environment).runIn w =
      match (r.resolve environment).runIn w with
      | (.error f, w₁) => (reported f, w₁)
      | (.ok resolution, w₁) =>
        (.ok ⟨0, String.join (resolution.table.entries.map variableLine), ""⟩, w₁) := by
  rw [printVariables, runIn_bind_ok (runIn_attempt _ w)]
  rcases (r.resolve environment).runIn w with ⟨f | resolution, w₁⟩
  · exact runIn_reportFailure f w₁
  · rfl

/-- A failure that is not one of the file system is reported as it is. -/
theorem runIn_reportOf_error {p : Path} (hother : ∀ cause, f ≠ .os cause) (w : World) :
    (reportOf p (.error f)).runIn w = (reported f, w) := by
  cases f with
  | os cause => exact absurd rfl (hother cause)
  | _ => exact runIn_reportFailure _ w

/-- A binary is not got because there is no resolution, or for a reason that is answered. -/
theorem getBinary_fails {p : Path}
    (h : (getBinary request p environment).runIn w = (.error f, w')) :
    (request.resolve environment).runIn w = (.error f, w') ∨ f.IsAnswered := by
  rw [getBinary, runIn_bind] at h
  rcases hresolution : (request.resolve environment).runIn w with ⟨g | resolution, w₁⟩
  · rw [hresolution] at h
    cases h
    exact Or.inl rfl
  · rw [hresolution] at h
    have hfails : FailsOnly Failure.IsAnswered
        (do fetchArtifact resolution p; return resolution.version) :=
      (fetchArtifact_failsOnly resolution p).bind fun _ => .pure _
    exact Or.inr (hfails _ _ _ h)

/-- Every command ends in one of the three ways. -/
theorem command_ended (hw : w.Sound)
    (hrun : (command.run environment).runIn w = (outcome, w')) :
    Ended environment w command outcome := by
  cases command with
  | vars request =>
    rw [Command.run, runIn_printVariables] at hrun
    rcases hresolution : (request.resolve environment).runIn w with ⟨f | resolution, w₁⟩
    · rw [hresolution] at hrun
      cases hrun
      exact ended_reported (.vars request) hresolution
    · rw [hresolution] at hrun
      cases hrun
      exact Or.inl ⟨_, rfl, rfl, _, _, hresolution⟩
  | render request templates target bare =>
    cases renderTemplates_ends hrun with
    | argument h => exact Or.inr (Or.inr ⟨_, rfl, .argument h⟩)
    | noDirectory _ _ => exact Or.inr (Or.inl ⟨_, rfl⟩)
    | unresolved h => exact ended_reported (.render request templates target bare) h
    | stopped _ _ => exact Or.inr (Or.inl ⟨_, rfl⟩)
    | broken h hfails hother =>
      rw [h.templatesIn_eq hw] at hfails
      obtain ⟨rfl, l, hl, hnull⟩ := hfails.null (h.readable hw) hother
      exact Or.inr (Or.inr ⟨_, rfl, .target h hl hnull⟩)
    | done h _ => exact Or.inl ⟨_, rfl, rfl, _, _, h.resolved⟩
  | fetch request destination =>
    rw [Command.run, fetchBinary_eq, runIn_bind_ok (runIn_attempt _ w)] at hrun
    rcases hget : (getBinary request (.ofString destination) environment).runIn w with
      ⟨f | version, v⟩
    · rw [hget] at hrun
      dsimp only at hrun
      by_cases hos : ∃ cause, f = .os cause
      · obtain ⟨cause, rfl⟩ := hos
        cases hrun
        exact Or.inr (Or.inl ⟨_, rfl⟩)
      · rw [runIn_reportOf_error (not_exists.1 hos)] at hrun
        cases hrun
        rcases getBinary_fails hget with hresolution | hanswered
        · exact ended_reported (.fetch request destination) hresolution
        · exact Or.inr (Or.inl ⟨_, reported_of_isReported (hanswered.resolve_right hos)⟩)
    · rw [hget] at hrun
      cases hrun
      obtain ⟨resolution, w₁, hresolution, -⟩ := of_runIn_bind_ok hget
      exact Or.inl ⟨_, rfl, rfl, resolution, w₁, hresolution⟩

/-- Without a resolution nothing happens after the attempt to find one. -/
theorem command_unresolved
    (hresolution : (command.request.resolve environment).runIn w = (.error f, w₁))
    (hrun : (command.run environment).runIn w = (outcome, w')) : w' = w ∨ w' = w₁ := by
  cases command with
  | vars request =>
    change (request.resolve environment).runIn w = _ at hresolution
    rw [Command.run, runIn_printVariables, hresolution] at hrun
    cases hrun
    exact Or.inr rfl
  | render request templates target bare =>
    change (request.resolve environment).runIn w = _ at hresolution
    have hprepared {directory output : Path} {resolution : Resolution} {v : World}
        (h : Prepared request templates target environment w directory output resolution v) :
        w' = w ∨ w' = w₁ := by
      have hresolved := h.resolved
      rw [hresolution] at hresolved
      cases hresolved
    cases renderTemplates_ends hrun with
    | argument _ => exact Or.inl rfl
    | noDirectory _ _ => exact Or.inl rfl
    | unresolved h =>
      rw [hresolution] at h
      cases h
      exact Or.inr rfl
    | stopped h _ => exact hprepared h
    | broken h _ _ => exact hprepared h
    | done h _ => exact hprepared h
  | fetch request destination =>
    change (request.resolve environment).runIn w = _ at hresolution
    have hget : (getBinary request (.ofString destination) environment).runIn w =
        (.error f, w₁) := runIn_bind_error hresolution
    rw [Command.run, fetchBinary_eq, runIn_bind_ok (runIn_attempt _ w), hget] at hrun
    dsimp only at hrun
    by_cases hos : ∃ cause, f = .os cause
    · obtain ⟨cause, rfl⟩ := hos
      cases hrun
      exact Or.inr rfl
    · rw [runIn_reportOf_error (not_exists.1 hos)] at hrun
      cases hrun
      exact Or.inr rfl

/-! ## The program -/

/-- A command line that is refused or asks for help does nothing else. -/
theorem run_without_command {arguments : List String}
    (h : ∀ i, Invocation.parse arguments ≠ .ok (some i))
    (hrun : (run arguments environment).runIn w = (outcome, w')) :
    w' = w ∧ outcome = match Invocation.parse arguments with
      | .error .usage => .ok ⟨2, "", misuse⟩
      | .error .noOperand => .error .noOperand
      | _ => .ok ⟨0, help, ""⟩ := by
  rw [run] at hrun
  cases hparse : Invocation.parse arguments with
  | error stop =>
    rw [hparse] at hrun
    cases stop <;> cases hrun <;> exact ⟨rfl, rfl⟩
  | ok invocation =>
    cases invocation with
    | some i => exact absurd hparse (h i)
    | none =>
      rw [hparse] at hrun
      cases hrun
      exact ⟨rfl, rfl⟩

/-- How the program ends.  A command ends with the status 0, or with the status 1 and one
message, or a failure gets past it in one of the known ways.  Without a resolution it does not
end with the status 0, has no output and changes no file.  Without a command, nothing is done.

The ways are all of them within three limits of `World` and `Yaml`: the escape of a surrogate in a
descriptor, such as `"\ud800"`, is read as U+FFFD and not as a surrogate, which UTF-8 could not
write; a file system refuses no name but one with U+0000, however long it is; and a document may
be nested to any depth. -/
theorem run_ends (arguments : List String) (environment : List (String × String)) {w w' : World}
    (hw : w.Sound) {outcome : Except Failure Report}
    (hrun : (run arguments environment).runIn w = (outcome, w')) :
    match Invocation.parse arguments with
    | .ok (some ⟨verbose, command⟩) =>
      ((∃ report, outcome = .ok report ∧ report.status = 0) ∨
        (∃ message, outcome =
          .ok ⟨1, "", shownLog verbose w'.log ++ ("Error: " ++ message ++ "\n")⟩) ∨
        ∃ f, outcome = .error f ∧ Escapes environment w command f) ∧
      ∀ f w₁, (command.request.resolve environment).runIn w = (.error f, w₁) →
        (w.removeTempFault = none → w'.files = w.files) ∧
        ∀ report, outcome = .ok report → report.status = 1 ∧ report.output = ""
    | .error .usage => outcome = .ok ⟨2, "", misuse⟩ ∧ w' = w
    | .error .noOperand => outcome = .error .noOperand ∧ w' = w
    | _ => outcome = .ok ⟨0, help, ""⟩ ∧ w' = w := by
  cases hparse : Invocation.parse arguments with
  | error stop =>
    obtain ⟨rfl, rfl⟩ := run_without_command (by rw [hparse]; nofun) hrun
    rw [hparse]
    cases stop <;> exact ⟨rfl, rfl⟩
  | ok invocation =>
    cases invocation with
    | none =>
      obtain ⟨rfl, rfl⟩ := run_without_command (by rw [hparse]; nofun) hrun
      rw [hparse]
      exact ⟨rfl, rfl⟩
    | some i =>
      obtain ⟨verbose, command⟩ := i
      obtain ⟨outcome₀, hcommand, rfl⟩ := of_run hparse hrun
      have hended := command_ended hw hcommand
      refine ⟨?_, fun f w₁ hresolution => ⟨fun hremove => ?_, fun report hreport => ?_⟩⟩
      · rcases hended with ⟨report, rfl, hdone, -⟩ | ⟨message, rfl⟩ | ⟨f, rfl, hf⟩
        · exact Or.inl ⟨_, rfl, hdone⟩
        · exact Or.inr (Or.inl ⟨message, rfl⟩)
        · exact Or.inr (Or.inr ⟨f, rfl, hf⟩)
      · rcases command_unresolved hresolution hcommand with rfl | rfl
        · rfl
        · exact ((command.request.resolve_tidy environment).of_removable hw.files hremove
            hresolution).1
      · rcases hended with ⟨_, -, -, resolution, v, hresolved⟩ | ⟨message, rfl⟩ | ⟨_, rfl, -⟩
        · rw [hresolution] at hresolved
          cases hresolved
        · cases hreport
          exact ⟨rfl, rfl⟩
        · cases hreport

/-- A world with a template that is named after a variable, of which the value holds the
character U+0000. -/
def nullNamed : World :=
  .offline ⟨[
    (["d"], .file ("mod: \x7bpkg: p, cls: C, name: N, id: \"a\\0b\", version: '1', " ++
      "dependencies: \x7b\x7d\x7d\numc: \x7bversion: '1.2'\x7d").toUTF8.toList),
    (["t"], .directory),
    (["t", "#ID#"], .file [])]⟩

/-- A command line that renders this template. -/
def nullNamedArguments : List String :=
  ["render", "d", "t", "o", "--minecraft", "1.12.2", "--loader", "forge"]

theorem nullNamed_sound : nullNamed.Sound :=
  ⟨⟨by decide +kernel, by decide +kernel, by decide +kernel⟩, rfl⟩

theorem run_ends_uncaught :
    nullNamed.Sound ∧
      (∃ i, Invocation.parse nullNamedArguments = .ok (some i)) ∧
      ∃ w', (run nullNamedArguments []).runIn nullNamed = (.error .nullInPath, w') := by
  have houtcome : ((run nullNamedArguments []).runIn nullNamed).1 = .error .nullInPath := by
    decide +kernel
  exact ⟨nullNamed_sound, ⟨_, rfl⟩, _, Prod.ext houtcome rfl⟩

/-- A command line for a brand that there is not. -/
def unknownLoaderArguments : List String :=
  ["vars", "d", "--minecraft", "1.12.2", "--loader", "x"]

theorem run_ends_unknownLoader :
    ∃ report w', (run unknownLoaderArguments []).runIn nullNamed = (.ok report, w') ∧
      report.status = 1 ∧ report.output = "" ∧ w'.files = nullNamed.files := by
  have hparse : Invocation.parse unknownLoaderArguments =
      .ok (some ⟨false, .vars ⟨"d", "1.12.2", "x", .shadow, none, none⟩⟩) := rfl
  have hresolution : ((Command.vars ⟨"d", "1.12.2", "x", .shadow, none, none⟩).request.resolve
      []).runIn nullNamed = (.error (.unknownLoader "x"), nullNamed) := rfl
  have hreports : (run unknownLoaderArguments []).gives nullNamed (fun _ _ => true) = true := by
    decide +kernel
  obtain ⟨report, w', hrun, -⟩ := gives_iff.1 hreports
  have hends := run_ends unknownLoaderArguments [] nullNamed_sound hrun
  rw [hparse] at hends
  obtain ⟨-, hunresolved⟩ := hends
  obtain ⟨hfiles, hreport⟩ := hunresolved _ _ hresolution
  obtain ⟨hone, hnothing⟩ := hreport report rfl
  exact ⟨report, w', hrun, hone, hnothing, hfiles rfl⟩

end Cli

end ModBuild
