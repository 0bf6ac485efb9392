import ModBuild.Text.Blank
import ModBuild.Text.Quoted

/-!
# Variants

A build is made for one *variant*: a version of the platform and a *brand* of
mod loader.  The key of a variant joins the two with a dash.  The *dialect* of a
build says which names two of its variables go by.
-/

namespace ModBuild

/-- A mod loader. -/
inductive Brand where
  | forge
  | neoforge
  | fabric
  | quilt
deriving DecidableEq, Repr

namespace Brand

/-- All brands, in the order in which messages list them. -/
def all : List Brand := [.forge, .neoforge, .fabric, .quilt]

/-- The name of a brand. -/
def name : Brand → String
  | forge => "forge"
  | neoforge => "neoforge"
  | fabric => "fabric"
  | quilt => "quilt"

/-- The brand that a text names.  Blanks around it and the case of its letters
do not count.  Only letters of ASCII have a lower-case form that occurs in a
name. -/
def parse? (text : String) : Option Brand :=
  let found := (Text.trim text.toList).map Char.toLower
  all.find? fun b => b.name.toList = found

/-- The message for a text that names no brand. -/
def unknownMessage (text : String) : String :=
  "Unknown loader " ++ Text.quoted text ++ ", expected one of: " ++
    ", ".intercalate (all.map name)

example : parse? " NeoForge\n" = some neoforge := by decide +kernel
example : ∀ b ∈ all, parse? b.name = some b := by decide +kernel

end Brand

/-- A naming of the variables that declare and relocate libraries. -/
inductive Dialect where
  /-- Libraries are shadowed into the mod. -/
  | shadow
  /-- The naming of older build scripts. -/
  | legacy
deriving DecidableEq, Repr

namespace Dialect

/-- All dialects. -/
def all : List Dialect := [.shadow, .legacy]

/-- The name of a dialect. -/
def name : Dialect → String
  | shadow => "shadow"
  | legacy => "legacy"

/-- The dialect that a text names exactly. -/
def parse? (text : String) : Option Dialect :=
  all.find? fun d => d.name = text

/-- The message for a text that names no dialect. -/
def unknownMessage (text : String) : String :=
  Text.quoted text ++ " is not a valid OutputDialect"

/-- The variable that declares the libraries. -/
def dependenciesKey : Dialect → String
  | shadow => "SHADOW"
  | legacy => "MOD_DEPENDENCIES"

/-- The variable that relocates the libraries. -/
def relocationKey : Dialect → String
  | shadow => "RELOCATE"
  | legacy => "RELOCATION"

end Dialect

/-- A version of the platform with a brand. -/
structure Variant where
  /-- The version of the platform. -/
  platform : String
  brand : Brand
deriving DecidableEq, Repr

/-- The key of a variant, which names its branch and its binary. -/
def Variant.key (v : Variant) : String :=
  v.platform ++ "-" ++ v.brand.name

end ModBuild
