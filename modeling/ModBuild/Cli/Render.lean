import ModBuild.Cli.Report
import ModBuild.Files.Order

/-!
# Rendering templates

Every file below the template directory is a template.  The variables are
replaced in what it holds and in the names that lead to it, and the outcome is
written below the output directory.  A template that is no text is copied as it
is.  The templates are rendered one after the other in the order of their
locations, and the first that cannot be written ends the command.
-/

namespace ModBuild.Cli

/-- The part of the program that writes the log here. -/
def renderLogger : String := "umcloader.cli.main"

/-- Render a template to a file. -/
def renderFile (table : List (String × String)) (delimited : Bool) (template target : Path) :
    Action Unit := do
  Action.write .debug renderLogger
    ("Rendering " ++ template.toString ++ " to " ++ target.toString)
  Action.ensureDirectories target.parent
  let octets ← Action.readFile template
  match Template.renderOctets .utf8 delimited table octets with
  | .ok rendered =>
    let _ ← Action.writeFile target rendered
    return ()
  | .error (.decode _) =>
    Action.write .debug renderLogger ("Copying " ++ template.toString ++ " unchanged")
    Action.copyFile template target
  -- The values of a resolution hold no surrogates, so UTF-8 refuses none of them.
  | .error (.encode e) => throw (.notEncodable e)

/-- The templates below a directory, in order, by the names that lead to them. -/
def templatesIn (w : World) (directory : Path) : List Location :=
  match w.locate directory with
  | .ok l => Location.sorted (w.files.filesBelow l)
  | .error _ => []

/-- The names that lead to a template, as a text. -/
def templateName (l : Location) : String :=
  "/".intercalate l

/-- The file that a template is rendered to. -/
def targetOf (r : Resolution) (delimited : Bool) (output : Path) (l : Location) : Path :=
  output / .ofString (r.render delimited (templateName l))

/-- Render templates, up to the first that cannot be written.  The outcome is the
report on that one. -/
def renderAll (r : Resolution) (delimited : Bool) (directory output : Path) :
    List Location → Action (Option Report)
  | [] => return none
  | l :: ls => do
    let target := targetOf r delimited output l
    match ← Action.attempt
        (renderFile r.table.entries delimited (directory / ⟨.relative, l⟩) target) with
    | .ok _ => renderAll r delimited directory output ls
    | .error (.os cause) =>
      return some (.failed ("cannot render '" ++ templateName l ++ "' to '" ++ target.toString ++
        "': " ++ cause.message))
    | .error f => throw f

/-- Render the templates of a directory into another one. -/
def renderTemplates (r : Request) (templates output : String) (bare : Bool)
    (environment : List (String × String)) : Action Report := do
  let directory ← Action.ofExcept ((← get).resolve (.ofString templates))
  let output ← Action.ofExcept ((← get).resolve (.ofString output))
  if (← get).isDirectory directory then
    match ← Action.attempt (r.resolve environment) with
    | .error f => reportFailure f
    | .ok resolution =>
      let ls := templatesIn (← get) directory
      match ← renderAll resolution (!bare) directory output ls with
      | some report => return report
      | none =>
        return .done ("Rendered " ++ Text.decimal ls.length ++ " file(s) for " ++
          resolution.variant.key ++ " into '" ++ output.toString ++ "'.")
  else
    return .failed ("template directory '" ++ directory.toString ++ "' does not exist.")

end ModBuild.Cli
