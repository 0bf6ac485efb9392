import ModBuild.Failure

/-!
# Words of the command line

A command line is a list of words.  A word that starts with a dash is an
*option*, unless it is a lone dash or a negative number or has a space in it.
The name of a long option may be cut short as long as it fits only one.  Something
can be attached to an option: a value behind an equals sign, or more letters
behind a short one.  The first word that is two dashes is a *separator*, and
every word behind it is an *operand*.
-/

namespace ModBuild.Cli

/-- An option. -/
inductive Opt where
  /-- Show how to use the program. -/
  | help
  | verbose
  /-- The version of the platform. -/
  | minecraft
  | loader
  | dialect
  /-- The Git repository of the core library. -/
  | repository
  /-- The Maven repository of the core library. -/
  | maven
  | bare
deriving DecidableEq, Repr

/-- Whether an option has a value. -/
def Opt.takesValue : Opt → Bool
  | help | verbose | bare => false
  | minecraft | loader | dialect | repository | maven => true

/-- The options that can be given, each under every name that it has. -/
abbrev Grammar := List (String × Opt)

/-- The options before the command. -/
def mainGrammar : Grammar :=
  [("-h", .help), ("--help", .help), ("-v", .verbose), ("--verbose", .verbose)]

/-- The options of every command. -/
def requestGrammar : Grammar :=
  [("-h", .help), ("--help", .help), ("--minecraft", .minecraft), ("--loader", .loader),
    ("--dialect", .dialect), ("--upstream", .repository), ("--maven-url", .maven)]

/-- The options of the command that renders templates. -/
def renderGrammar : Grammar :=
  requestGrammar ++ [("--bare", .bare)]

/-- Why a command line is not followed. -/
inductive Stop where
  | help
  | usage
  /-- A second separator stands where an operand should. -/
  | noOperand
deriving DecidableEq, Repr

/-- What is attached to an option. -/
inductive Attachment where
  | nothing
  /-- A text behind an equals sign. -/
  | value (text : String)
  | letters (cs : List Char)
deriving DecidableEq, Repr

/-- What a word is. -/
inductive Word where
  | operand
  | separator
  /-- An option, if its name is known, and what is attached. -/
  | option (found : Option Opt) (attached : Attachment)
deriving DecidableEq, Repr

/-- A text cut at the first equals sign. -/
def cutAtEquals? (cs : List Char) : Option (String × String) :=
  match cs.dropWhile (· != '=') with
  | [] => none
  | _ :: value => some (.ofList (cs.takeWhile (· != '=')), .ofList value)

/-- Whether a text is a negative number: a dash and digits, perhaps with a point
and with a line feed at the end. -/
def isNegativeNumber (cs : List Char) : Bool :=
  let cs := if cs.getLast? = some '\n' then cs.dropLast else cs
  match cs with
  | '-' :: body =>
    let after := body.dropWhile Text.isDigit
    match after with
    | [] => !body.isEmpty
    | '.' :: places => !places.isEmpty && places.all Text.isDigit
    | _ => false
  | _ => false

/-- The options that a text can stand for when it is no full name. -/
def Grammar.candidates (g : Grammar) (text : String) : List Word :=
  match text.toList with
  | '-' :: '-' :: _ =>
    let (name, attached) :=
      match cutAtEquals? text.toList with
      | some (name, value) => (name, Attachment.value value)
      | none => (text, .nothing)
    g.filterMap fun o =>
      if name.toList.isPrefixOf o.1.toList then some (.option (some o.2) attached) else none
  | d :: c :: letters =>
    g.filterMap fun o =>
      if o.1.toList = [d, c] then some (.option (some o.2) (.letters letters))
      else if text.toList.isPrefixOf o.1.toList then some (.option (some o.2) .nothing)
      else none
  | _ => []

/-- What a text with a dash in front of other characters is. -/
def Grammar.optionWord (g : Grammar) (text : String) : Except Stop Word :=
  match g.lookup text with
  | some o => .ok (.option (some o) .nothing)
  | none =>
    let full := (cutAtEquals? text.toList).bind fun (name, value) =>
      (g.lookup name).map fun o => Word.option (some o) (.value value)
    match full with
    | some w => .ok w
    | none =>
      match g.candidates text with
      | [w] => .ok w
      | [] =>
        if isNegativeNumber text.toList || text.toList.contains ' ' then .ok .operand
        else .ok (.option none .nothing)
      | _ => .error .usage

/-- What a text is, if it does not stand behind the separator. -/
def Grammar.word (g : Grammar) (text : String) : Except Stop Word :=
  match text.toList with
  | '-' :: _ :: _ => g.optionWord text
  | _ => .ok .operand

/-- The words of a command line. -/
def Grammar.words (g : Grammar) : List String → Except Stop (List (String × Word))
  | [] => .ok []
  | text :: texts =>
    if text = "--" then
      .ok ((text, .separator) :: texts.map fun t => (t, .operand))
    else do
      let w ← g.word text
      let ws ← g.words texts
      return (text, w) :: ws

end ModBuild.Cli
