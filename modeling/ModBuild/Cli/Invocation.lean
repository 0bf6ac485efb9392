import ModBuild.Cli.Word
import ModBuild.Variant

/-!
# Invocations

A command line asks for one of three commands.  All of them have the descriptor
as an operand and the same options.  Options and operands can be mixed.  The last
of several values of an option counts.

What the grammar has no place for is *excess*.  It is refused only in the end, so
that a request for help is heard, and so is an operand that is missing between
two separators.
-/

namespace ModBuild.Cli

/-- What every command is told. -/
structure Request where
  /-- The file of the descriptor. -/
  descriptor : String
  /-- The version of the platform. -/
  minecraft : String
  loader : String
  dialect : Dialect
  /-- The Git repository of the core library. -/
  repository : Option String
  /-- The Maven repository of the core library. -/
  maven : Option String
deriving DecidableEq, Repr

/-- A command. -/
inductive Command where
  | vars (r : Request)
  /-- Render the templates of a directory into another one. -/
  | render (r : Request) (templates output : String) (bare : Bool)
  /-- Copy or download the binary to a file. -/
  | fetch (r : Request) (destination : String)
deriving DecidableEq, Repr

/-- What a command line asks for. -/
structure Invocation where
  /-- Whether the whole log is shown. -/
  verbose : Bool
  command : Command
deriving DecidableEq, Repr

/-! ## Options and operands -/

/-- What was given so far. -/
structure Given where
  /-- The options with their values, the last first. -/
  options : List (Opt × String)
  operands : List String
  excess : Bool
  /-- Whether an operand is missing. -/
  hollow : Bool
deriving DecidableEq, Repr

/-- Nothing. -/
def Given.nothing : Given := ⟨[], [], false, false⟩

namespace Given

/-- The value of an option. -/
def value? (g : Given) (o : Opt) : Option String :=
  g.options.lookup o

/-- Take an option without a value. -/
def giveFlag (g : Given) (o : Opt) : Except Stop Given :=
  if o = .help then .error .help else .ok { g with options := (o, "") :: g.options }

/-- Take an option with a value.  A dialect must be one by name. -/
def giveValue (g : Given) (o : Opt) (value : String) : Except Stop Given :=
  if o = .dialect ∧ (Dialect.parse? value).isNone then .error .usage
  else .ok { g with options := (o, value) :: g.options }

/-- The short options that letters stand for, up to the first that stands for
none, and whether there is one. -/
def flagsOf (grammar : Grammar) : List Char → Except Stop (List Opt × Bool)
  | [] => .ok ([], false)
  | c :: cs =>
    if c = '-' then
      .error .usage
    else
      match grammar.lookup (.ofList ['-', c]), cs with
      | none, _ => .ok ([], true)
      | some _, '=' :: _ => .error .usage
      | some o, cs => (flagsOf grammar cs).map fun (os, excess) => (o :: os, excess)

/-- Take several short options that are written in one word, of which none has a
value. -/
def giveFlags (g : Given) (grammar : Grammar) (first : Opt) (letters : List Char) :
    Except Stop Given := do
  let (others, excess) ← flagsOf grammar letters
  let g ← (first :: others).foldlM giveFlag g
  return { g with excess := g.excess || excess }

/-- Take an option and perhaps the word behind it. -/
def giveOption (g : Given) (grammar : Grammar) (found : Option Opt) (attached : Attachment)
    (rest : List (String × Word)) : Except Stop (Given × List (String × Word)) :=
  match found with
  | none => .ok ({ g with excess := true }, rest)
  | some o =>
    match o.takesValue, attached with
    | true, .value text => (g.giveValue o text).map (·, rest)
    | true, .letters cs => (g.giveValue o (.ofList cs)).map (·, rest)
    | true, .nothing =>
      match rest with
      | (text, .operand) :: rest => (g.giveValue o text).map (·, rest)
      | _ => .error .usage
    | false, .nothing => (g.giveFlag o).map (·, rest)
    | false, .letters cs => (g.giveFlags grammar o cs).map (·, rest)
    | false, .value _ => .error .usage

/-- Take an operand, which is what is left of a group without one pair of
dashes. -/
def giveOperand (g : Given) (group : List String) : Given :=
  match group.erase "--" with
  | [] => { g with operands := g.operands ++ [""], hollow := true }
  | text :: _ => { g with operands := g.operands ++ [text] }

end Given

/-- Whether a word is an option. -/
def Word.isOption : Word → Bool
  | .option .. => true
  | _ => false

/-- The text that stands for one operand, with the separators around it. -/
def operandGroup? (ws : List (String × Word)) : Option (List String × List (String × Word)) :=
  let isSeparator (w : String × Word) := w.2 == .separator
  match ws.dropWhile isSeparator with
  | (text, .operand) :: rest =>
    some ((ws.takeWhile isSeparator).map (·.1) ++ text :: (rest.takeWhile isSeparator).map (·.1),
      rest.dropWhile isSeparator)
  | _ => none

/-- Take as many operands as have a place. -/
def takeOperands : (places : Nat) → List (String × Word) →
    List (List String) × List (String × Word)
  | 0, ws => ([], ws)
  | n + 1, ws =>
    match operandGroup? ws with
    | none => ([], ws)
    | some (group, rest) =>
      let (groups, rest) := takeOperands n rest
      (group :: groups, rest)

/-- Take words, of which a number of operands has a place. -/
def Given.take (g : Given) (grammar : Grammar) (places : Nat) (ws : List (String × Word)) :
    (fuel : Nat) → Except Stop Given
  | 0 => .error .usage
  | fuel + 1 =>
    match ws with
    | [] => .ok g
    | (_, .option found attached) :: rest => do
      let (g, rest) ← g.giveOption grammar found attached rest
      g.take grammar places rest fuel
    | _ =>
      match takeOperands (places - g.operands.length) ws with
      | ([], _) =>
        { g with excess := true }.take grammar places
          (ws.dropWhile fun w => !w.2.isOption) fuel
      | (groups, rest) => (groups.foldl giveOperand g).take grammar places rest fuel

/-! ## Commands -/

/-- What every command is told. -/
def Given.request? (g : Given) (descriptor : String) : Option Request := do
  let minecraft ← g.value? .minecraft
  let loader ← g.value? .loader
  let dialect := ((g.value? .dialect).bind Dialect.parse?).getD .shadow
  return ⟨descriptor, minecraft, loader, dialect, g.value? .repository, g.value? .maven⟩

/-- A kind of command. -/
inductive Verb where
  | vars
  | render
  | fetch
deriving DecidableEq, Repr

/-- The kind of command that a word names. -/
def Verb.parse? (text : String) : Option Verb :=
  if text = "vars" then some .vars
  else if text = "render" then some .render
  else if text = "fetch-jar" then some .fetch
  else none

/-- The options of a kind of command. -/
def Verb.grammar : Verb → Grammar
  | render => renderGrammar
  | _ => requestGrammar

/-- The number of operands of a kind of command. -/
def Verb.places : Verb → Nat
  | vars => 1
  | render => 3
  | fetch => 2

/-- The command of a kind for what was given, if nothing is missing. -/
def Verb.command? (v : Verb) (g : Given) : Option Command :=
  match v, g.operands with
  | vars, [d] => (g.request? d).map .vars
  | render, [d, templates, output] =>
    (g.request? d).map fun r => .render r templates output (g.value? .bare).isSome
  | fetch, [d, destination] => (g.request? d).map fun r => .fetch r destination
  | _, _ => none

/-- Read the words behind the name of a command, before which there may have been
excess. -/
def Verb.parse (v : Verb) (excess : Bool) (texts : List String) : Except Stop Command := do
  let ws ← v.grammar.words texts
  let g ← Given.nothing.take v.grammar v.places ws (2 * ws.length + 1)
  match v.command? g with
  | none => .error .usage
  | some c =>
    if excess || g.excess then .error .usage
    else if g.hollow then .error .noOperand
    else return c

/-- Read the words before the name of a command and the command. -/
def parseMain (g : Given) (ws : List (String × Word)) :
    (fuel : Nat) → Except Stop (Option Invocation)
  | 0 => .error .usage
  | fuel + 1 =>
    match ws with
    | [] => if g.excess then .error .usage else .ok none
    | (_, .option found attached) :: rest => do
      let (g, rest) ← g.giveOption mainGrammar found attached rest
      parseMain g rest fuel
    | (_, .separator) :: _ => .error .usage
    | (text, .operand) :: rest =>
      match Verb.parse? text with
      | none => .error .usage
      | some v =>
        (v.parse g.excess (rest.map (·.1))).map fun c => some ⟨(g.value? .verbose).isSome, c⟩

/-- What a command line asks for, or nothing if it names no command. -/
def Invocation.parse (texts : List String) : Except Stop (Option Invocation) := do
  let ws ← mainGrammar.words texts
  parseMain .nothing ws (ws.length + 1)

end ModBuild.Cli
