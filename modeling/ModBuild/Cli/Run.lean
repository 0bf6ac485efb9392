import ModBuild.Cli.Fetch
import ModBuild.Cli.Render
import ModBuild.Cli.Vars

/-!
# Running the program

A command line is read and its command is carried out.  The log goes to the
standard error: all of it if the command line asks for that, and otherwise the
warnings.
-/

namespace ModBuild.Cli

/-- How to use the program. -/
def help : String :=
  "usage: umcloader [-h] [-v] COMMAND ...\n\n" ++
    "  vars DESCRIPTOR --minecraft VERSION --loader LOADER\n" ++
    "      print the resolved variables\n" ++
    "  render DESCRIPTOR TEMPLATE_DIR OUTPUT_DIR --minecraft VERSION --loader LOADER [--bare]\n" ++
    "      substitute the variables into a directory of templates\n" ++
    "  fetch-jar DESCRIPTOR DESTINATION --minecraft VERSION --loader LOADER\n" ++
    "      copy or download the binary of the core library\n\n" ++
    "options of every command:\n" ++
    "  --dialect shadow|legacy  --upstream URL  --maven-url URL\n"

/-- What is said of a command line that makes no sense. -/
def misuse : String :=
  "usage: umcloader [-h] [-v] COMMAND ...\numcloader: error: invalid arguments\n"

/-- The lines of a log that are printed. -/
def shownLog (verbose : Bool) (log : List LogLine) : String :=
  String.join ((log.filter fun l => verbose || l.level == .warning).map fun l => l.text ++ "\n")

/-- Carry out a command. -/
def Command.run (c : Command) (environment : List (String × String)) : Action Report :=
  match c with
  | vars r => printVariables r environment
  | render r templates output bare => renderTemplates r templates output bare environment
  | fetch r destination => fetchBinary r destination environment

/-- Run the program. -/
def run (arguments : List String) (environment : List (String × String)) : Action Report := do
  match Invocation.parse arguments with
  | .error .help => return ⟨0, help, ""⟩
  | .error .usage => return ⟨2, "", misuse⟩
  | .error .noOperand => throw .noOperand
  | .ok none => return ⟨0, help, ""⟩
  | .ok (some i) =>
    let report ← i.command.run environment
    return { report with errors := shownLog i.verbose (← get).log ++ report.errors }

end ModBuild.Cli
