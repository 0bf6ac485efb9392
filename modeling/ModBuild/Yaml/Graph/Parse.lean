import ModBuild.Yaml.Graph
import ModBuild.Yaml.Token.Stream

/-!
# The graph of a token sequence

A text holds at most one document.  A document starts with its root node, or
with directives and the mark for the start of a document.  In a collection that
is shown by indentation, and in brackets or braces, items, keys and values can be
left out, and an empty scalar stands in their place.  A list that is the value
of a key may start at the column of the key, and then only its dashes show it.

The tokens may come with a fault behind them, which arises when a token is asked
for that is not there.  Every recursion is on a bound that is four times the number
of tokens, since fewer than four calls are nested without taking a token.
-/

namespace ModBuild.Yaml

/-- The state of reading a graph. -/
structure Parser where
  /-- The tokens that are left. -/
  tokens : List Token
  /-- The fault behind the tokens. -/
  fault : Option ScalarFault
  nodes : Array Node
  /-- The finished nodes, the last first. -/
  finished : List Nat
  /-- The nodes that have a name. -/
  anchors : List (String × Nat)
  /-- The handles of tags, with the starts that they stand for. -/
  handles : List (String × String)
  /-- Whether some node occurs within itself. -/
  cyclic : Bool

namespace Parser

/-- A step of reading a graph. -/
abbrev Step := StateT Parser (Except Fault)

/-- Where a node stands, which says how it can start. -/
inductive Place where
  | inFlow
  | inBlock
  /-- Behind the mark of a key or value where indentation counts. -/
  | inEntry
deriving DecidableEq, Repr

/-- What can stand before a node: a name and a tag. -/
structure Properties where
  anchor : Option String
  /-- The tag as it is written. -/
  tag : Option String
deriving DecidableEq, Repr

/-- No name and no tag. -/
def Properties.empty : Properties := ⟨none, none⟩

/-- Stop because the text is no YAML. -/
def refuse {α : Type} : Step α :=
  throw .notYaml

/-- The next token. -/
def peek : Step Token := do
  let p ← get
  match p.tokens with
  | t :: _ => return t
  | [] => throw ((p.fault.map .scalar).getD .notYaml)

/-- Move past a token. -/
def advance : Step Unit :=
  modify fun p => { p with tokens := p.tokens.drop 1 }

/-- The handles that need no directive. -/
def defaultHandles : List (String × String) :=
  [("!", "!"), ("!!", Tag.start)]

/-- The address that a tag stands for. -/
def address (handle : Option String) (suffix : String) : Step String := do
  match handle with
  | none => return suffix
  | some h =>
    match (← get).handles.lookup h with
    | some start => return start ++ suffix
    | none => refuse

/-- Read the properties of a node, in either order. -/
def properties : Step Properties := do
  match ← peek with
  | .anchor name =>
    advance
    match ← peek with
    | .tag h s =>
      advance
      return ⟨some name, some (← address h s)⟩
    | _ => return ⟨some name, none⟩
  | .tag h s =>
    advance
    match ← peek with
    | .anchor name =>
      advance
      return ⟨some name, some (← address h s)⟩
    | _ => return ⟨none, some (← address h s)⟩
  | _ => return .empty

/-- The tag of a node whose own tag may be missing or a single mark. -/
def Properties.tagOr (p : Properties) (default : Tag) : Tag :=
  match p.tag with
  | none => default
  | some address => if address = "!" then default else .ofAddress address

/-- The tag of a scalar, where a single mark asks for the tag by the form. -/
def Properties.scalarTag (p : Properties) (text : String) (plain : Bool) : Tag :=
  if plain ∨ p.tag.isSome then p.tagOr (.ofPlain text) else .str

/-- Start a node, whose name must be new. -/
def start (p : Properties) (node : Node) : Step Nat := do
  let s ← get
  let n := s.nodes.size
  match p.anchor with
  | none =>
    set { s with nodes := s.nodes.push node }
  | some name =>
    if (s.anchors.lookup name).isSome then
      refuse
    else
      set { s with nodes := s.nodes.push node, anchors := (name, n) :: s.anchors }
  return n

/-- Finish a node with what it holds. -/
def finish (n : Nat) (content : Content) : Step Nat := do
  modify fun s =>
    { s with
      nodes := s.nodes.modify n fun node => { node with content := content }
      finished := n :: s.finished }
  return n

/-- A scalar. -/
def scalar (p : Properties) (text : String) (plain : Bool) : Step Nat := do
  let n ← start p ⟨p.scalarTag text plain, .scalar text⟩
  finish n (.scalar text)

/-- The scalar for something that is left out. -/
def omitted : Step Nat :=
  scalar .empty "" true

/-- The node that has a name. -/
def aliased (name : String) : Step Nat := do
  let s ← get
  match s.anchors.lookup name with
  | none => refuse
  | some n =>
    unless s.finished.contains n do
      set { s with cyclic := true }
    return n

/-- Whether an item shown by indentation is left out before a token. -/
def endsItem : Token → Bool
  | .blockEntry | .blockEnd => true
  | _ => false

/-- Whether an item shown by dashes alone is left out before a token. -/
def endsDashItem : Token → Bool
  | .blockEntry | .key | .value | .blockEnd => true
  | _ => false

/-- Whether a key or value shown by indentation is left out before a token. -/
def endsPart : Token → Bool
  | .key | .value | .blockEnd => true
  | _ => false

/-- Whether a key is left out before a token inside brackets or braces. -/
def endsFlowKey (close : Token) (t : Token) : Bool :=
  t == .value || t == .flowEntry || t == close

/-- Whether a value is left out before a token inside brackets or braces. -/
def endsFlowValue (close : Token) (t : Token) : Bool :=
  t == .flowEntry || t == close

mutual

/-- Read a node. -/
def node (place : Place) : (fuel : Nat) → Step Nat
  | 0 => refuse
  | fuel + 1 => do
    match ← peek with
    | .alias name =>
      advance
      aliased name
    | _ =>
      let p ← properties
      match ← peek with
      | .scalar text plain =>
        advance
        scalar p text plain
      | .flowSequenceStart =>
        advance
        let n ← start p ⟨p.tagOr .seq, .sequence []⟩
        finish n (.sequence (← flowItems true fuel))
      | .flowMappingStart =>
        advance
        let n ← start p ⟨p.tagOr .map, .mapping []⟩
        finish n (.mapping (← flowEntries true fuel))
      | t =>
        if t = .blockEntry ∧ place = .inEntry then
          let n ← start p ⟨p.tagOr .seq, .sequence []⟩
          finish n (.sequence (← dashItems fuel))
        else if t = .blockSequenceStart ∧ place ≠ .inFlow then
          advance
          let n ← start p ⟨p.tagOr .seq, .sequence []⟩
          finish n (.sequence (← blockItems fuel))
        else if t = .blockMappingStart ∧ place ≠ .inFlow then
          advance
          let n ← start p ⟨p.tagOr .map, .mapping []⟩
          finish n (.mapping (← blockEntries fuel))
        else if p = .empty then
          refuse
        else
          scalar p "" true

/-- Read a node, unless it is left out. -/
def nodeUnless (isOmitted : Token → Bool) (place : Place) : (fuel : Nat) → Step Nat
  | 0 => refuse
  | fuel + 1 => do
    if isOmitted (← peek) then omitted else node place fuel

/-- Read the value of a key, if its mark is there, unless it is left out. -/
def valueUnless (isOmitted : Token → Bool) (place : Place) : (fuel : Nat) → Step Nat
  | 0 => refuse
  | fuel + 1 => do
    match ← peek with
    | .value =>
      advance
      nodeUnless isOmitted place fuel
    | _ => omitted

/-- Read the items of a list that is shown by indentation, and its end. -/
def blockItems : (fuel : Nat) → Step (List Nat)
  | 0 => refuse
  | fuel + 1 => do
    match ← peek with
    | .blockEntry =>
      advance
      let n ← nodeUnless endsItem .inBlock fuel
      return n :: (← blockItems fuel)
    | .blockEnd =>
      advance
      return []
    | _ => refuse

/-- Read the items of a list that is shown by dashes alone. -/
def dashItems : (fuel : Nat) → Step (List Nat)
  | 0 => refuse
  | fuel + 1 => do
    match ← peek with
    | .blockEntry =>
      advance
      let n ← nodeUnless endsDashItem .inBlock fuel
      return n :: (← dashItems fuel)
    | _ => return []

/-- Read the entries of a mapping that is shown by indentation, and its end. -/
def blockEntries : (fuel : Nat) → Step (List (Nat × Nat))
  | 0 => refuse
  | fuel + 1 => do
    match ← peek with
    | .key =>
      advance
      let k ← nodeUnless endsPart .inEntry fuel
      let v ← valueUnless endsPart .inEntry fuel
      return (k, v) :: (← blockEntries fuel)
    | .blockEnd =>
      advance
      return []
    | _ => refuse

/-- Read the items of a list in brackets, and its end.  An item with a colon is
a mapping with one entry. -/
def flowItems (first : Bool) : (fuel : Nat) → Step (List Nat)
  | 0 => refuse
  | fuel + 1 => do
    if (← peek) = .flowSequenceEnd then
      advance
      return []
    else
      unless first do
        if (← peek) = .flowEntry then advance else refuse
      match ← peek with
      | .key =>
        let n ← start .empty ⟨.map, .mapping []⟩
        advance
        let k ← nodeUnless (endsFlowKey .flowSequenceEnd) .inFlow fuel
        let v ← valueUnless (endsFlowValue .flowSequenceEnd) .inFlow fuel
        let n ← finish n (.mapping [(k, v)])
        return n :: (← flowItems false fuel)
      | .flowSequenceEnd =>
        advance
        return []
      | _ =>
        let n ← node .inFlow fuel
        return n :: (← flowItems false fuel)

/-- Read the entries of a mapping in braces, and its end.  An item without a
colon is a key without a value. -/
def flowEntries (first : Bool) : (fuel : Nat) → Step (List (Nat × Nat))
  | 0 => refuse
  | fuel + 1 => do
    if (← peek) = .flowMappingEnd then
      advance
      return []
    else
      unless first do
        if (← peek) = .flowEntry then advance else refuse
      match ← peek with
      | .key =>
        advance
        let k ← nodeUnless (endsFlowKey .flowMappingEnd) .inFlow fuel
        let v ← valueUnless (endsFlowValue .flowMappingEnd) .inFlow fuel
        return (k, v) :: (← flowEntries false fuel)
      | .flowMappingEnd =>
        advance
        return []
      | _ =>
        let k ← node .inFlow fuel
        let v ← omitted
        return (k, v) :: (← flowEntries false fuel)

end

/-- Read directives.  Only one may say the version, which must be a first
version, and no two may say what a handle stands for. -/
def directives (versioned : Bool) (handles : List (String × String)) :
    (fuel : Nat) → Step Unit
  | 0 => refuse
  | fuel + 1 => do
    match ← peek with
    | .directive (.version major) =>
      if versioned ∨ major ≠ 1 then
        refuse
      else
        advance
        directives true handles fuel
    | .directive (.tag handle start) =>
      if (handles.lookup handle).isSome then
        refuse
      else
        advance
        directives versioned ((handle, start) :: handles) fuel
    | .directive .other =>
      advance
      directives versioned handles fuel
    | _ => modify fun p => { p with handles := handles ++ defaultHandles }

/-- Whether the root is left out before a token. -/
def endsRoot : Token → Bool
  | .directive _ | .documentStart | .documentEnd | .streamEnd => true
  | _ => false

/-- Read the root of the first document, if there is one. -/
def root? (fuel : Nat) : Step (Option Nat) := do
  match ← peek with
  | .streamEnd => return none
  | .directive _ | .documentStart =>
    directives false [] fuel
    if (← peek) = .documentStart then
      advance
      return some (← nodeUnless endsRoot .inBlock fuel)
    else
      refuse
  | _ => return some (← node .inBlock fuel)

/-- Move past tokens of a class. -/
def skipWhile (p : Token → Bool) : (fuel : Nat) → Step Unit
  | 0 => pure ()
  | fuel + 1 => do
    if p (← peek) then
      advance
      skipWhile p fuel

/-- Whether a token marks the end of a document. -/
def isDocumentEnd : Token → Bool
  | .documentEnd => true
  | _ => false

/-- Whether a token is a directive. -/
def isDirective : Token → Bool
  | .directive _ => true
  | _ => false

/-- Read the end, before which no second document may start. -/
def readEnd (fuel : Nat) : Step Unit := do
  skipWhile isDocumentEnd fuel
  if (← peek) ≠ .streamEnd then
    skipWhile isDirective fuel
    let _ ← peek
    refuse

/-- Read the only document, if there is one. -/
def document? (fuel : Nat) : Step (Option Nat) := do
  match ← root? fuel with
  | none => return none
  | some n =>
    readEnd fuel
    return some n

end Parser

/-- The graph of a token sequence, or nothing if it holds no document. -/
def Graph.ofTokens (ts : Tokens) : Except Fault (Option Graph) := do
  let start : Parser := ⟨ts.list, ts.fault, #[], [], [], Parser.defaultHandles, false⟩
  let (root, p) ← (Parser.document? (4 * ts.list.length + 8)).run start
  return root.map fun n => ⟨p.nodes, n, p.finished.reverse, p.cyclic⟩

end ModBuild.Yaml
