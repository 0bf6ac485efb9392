import ModBuild.Encoding.Scheme
import ModBuild.Template.Replace

/-!
# Rendering a template

A variable occurs in a template as a token: its bare name, or its name between
two `#` signs.  Rendering replaces the tokens of a table of variables by their
values.

The names and values of a table are texts without surrogates, or lists of code
points where they may hold some.
-/

namespace ModBuild.Template

open Encoding (Point)

/-- A name as it stands in a template, between two marks if it is delimited. -/
def enclosed {α : Type} (mark : α) (delimited : Bool) (name : List α) : List α :=
  if delimited then mark :: (name ++ [mark]) else name

/-- The token of a variable. -/
def token (delimited : Bool) (name : String) : List Char :=
  enclosed '#' delimited name.toList

/-- The tokens of a table with their values. -/
def replacements (delimited : Bool) (table : List (String × String)) :
    List (Replacement Char) :=
  table.map fun v => ⟨token delimited v.1, v.2.toList⟩

/-- Replace the tokens of a table in a list of characters. -/
def renderChars (delimited : Bool) (table : List (String × String)) (text : List Char) :
    List Char :=
  replace (replacements delimited table) text

/-- Replace the tokens of a table in a text. -/
def render (delimited : Bool) (table : List (String × String)) (text : String) : String :=
  .ofList (renderChars delimited table text.toList)

/-- Why octets cannot be rendered. -/
inductive OctetsError where
  | decode (e : Encoding.DecodeError)
  /-- What they render to cannot be written. -/
  | encode (e : Encoding.EncodeError)
deriving DecidableEq, Repr

/-- The message for octets that cannot be rendered. -/
def OctetsError.message : OctetsError → String
  | .decode e => e.message
  | .encode e => e.message

/-- The tokens of a table of code points with their values. -/
def pointReplacements (delimited : Bool) (table : List (List Point × List Point)) :
    List (Replacement Point) :=
  table.map fun v => ⟨enclosed (.char '#') delimited v.1, v.2⟩

/-- Replace the tokens of a table of code points in the text that octets are, and
write it in the same scheme. -/
def renderPoints (scheme : Encoding.Scheme) (delimited : Bool)
    (table : List (List Point × List Point)) (octets : List UInt8) :
    Except OctetsError (List UInt8) :=
  match scheme.decode octets with
  | .error e => .error (.decode e)
  | .ok text =>
    match scheme.encode (replace (pointReplacements delimited table) (text.map .char)) with
    | .error e => .error (.encode e)
    | .ok octets => .ok octets

/-- Replace the tokens of a table in the text that octets are, and write it in
the same scheme. -/
def renderOctets (scheme : Encoding.Scheme) (delimited : Bool) (table : List (String × String))
    (octets : List UInt8) : Except OctetsError (List UInt8) :=
  renderPoints scheme delimited (table.map fun v => (Encoding.points v.1, Encoding.points v.2))
    octets

example : render true [("AB", "x"), ("ABC", "#AB#")] "#ABC##AB# AB" = "#AB#x AB" := by
  decide +kernel

end ModBuild.Template
