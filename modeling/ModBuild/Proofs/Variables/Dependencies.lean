import Mathlib.Data.List.Basic
import ModBuild.Proofs.Text.Digit
import ModBuild.Proofs.Text.Split
import ModBuild.Proofs.Variables.Build

/-!
# The lists of dependencies

Two variables list the dependencies of a mod, with the core library as the last one.  Both
can be read back.  One is a line of requirements with a semicolon between two of them
(`readRequirement?`).  The other is a text of blocks with a blank line between two of them,
each block being a header and some settings (`readBlock?`).  A semicolon, a line feed or a
quote in an id or a range would be taken for the end of it, and so would an at sign in an
id.  Without these, both lists are read back as the same dependencies in the same order,
whatever else is in them (`build_lists_dependencies`).
-/

namespace ModBuild

namespace Variables

open Text

/-! ## Reading a requirement -/

/-- The dependency that a requirement is about.  Its id ends at the first at sign. -/
def readRequirement? (text : String) : Option Dependency := do
  let rest ← text.toList.dropPrefix? "required-after:".toList
  let (id, versions) ← cutAt? '@' rest
  return ⟨.ofList id, .ofList versions⟩

theorem toList_requirement (d : Dependency) :
    (requirement d).toList =
      "required-after:".toList ++ (d.id.toList ++ '@' :: d.versions.toList) := by
  -- An equation of the definition would be checked by evaluating the literals.
  delta requirement
  simp

theorem readRequirement?_requirement {d : Dependency} (h : '@' ∉ d.id.toList) :
    readRequirement? (requirement d) = some d := by
  rw [readRequirement?, toList_requirement, dropPrefix?_append, Option.bind_eq_bind,
    Option.bind_some, cutAt?_append h]
  simp

/-! ## Reading a block -/

/-- The id in the header of a block. -/
def readHeader? (line : List Char) : Option String := do
  let rest ← line.dropPrefix? "[[dependencies.".toList
  let id ← rest.dropSuffix? "]]".toList
  return .ofList id

/-- The name and the value of a setting.  The value stands in quotes, and the line ends with
the second one. -/
def readSetting? (line : List Char) : Option (String × String) := do
  let rest ← line.dropPrefix? "    ".toList
  let (key, rest) ← cutAt? '=' rest
  let rest ← rest.dropPrefix? ['"']
  let (value, behind) ← cutAt? '"' rest
  if behind = [] then some (.ofList key, .ofList value) else none

/-- The mod that a block belongs to and the dependency that it is about. -/
def readBlock? (block : String) : Option (String × Dependency) :=
  match fields '\n' block.toList with
  | [] => none
  | header :: lines => do
    let settings := lines.filterMap readSetting?
    let modId ← readHeader? header
    let id ← settings.lookup "modId"
    let versions ← settings.lookup "versionRange"
    return (modId, ⟨id, versions⟩)

/-- A setting in a line of its own. -/
def setting (key value : String) : String :=
  "    " ++ key ++ "=\"" ++ value ++ "\""

/-- The lines of a block. -/
def blockLines (modId mandatory : String) (d : Dependency) : List String :=
  ["[[dependencies." ++ modId ++ "]]", setting "modId" d.id, "    " ++ mandatory,
    setting "versionRange" d.versions, setting "ordering" "BEFORE", setting "side" "BOTH"]

theorem readHeader?_header (modId : String) :
    readHeader? ("[[dependencies." ++ modId ++ "]]").toList = some modId := by
  rw [readHeader?, String.toList_append, String.toList_append, List.append_assoc,
    dropPrefix?_append, Option.bind_eq_bind, Option.bind_some, dropSuffix?_append]
  simp

theorem readSetting?_setting {key value : String} (hkey : '=' ∉ key.toList)
    (hvalue : '"' ∉ value.toList) :
    readSetting? (setting key value).toList = some (key, value) := by
  have hchars : (setting key value).toList =
      "    ".toList ++ (key.toList ++ '=' :: (['"'] ++ (value.toList ++ '"' :: []))) := by
    simp [setting]
  simp only [readSetting?, hchars, dropPrefix?_append, Option.bind_eq_bind, Option.bind_some,
    cutAt?_append hkey, cutAt?_append hvalue]
  simp

/-- A block is the text of its lines. -/
theorem tomlBlock_eq (modId mandatory : String) (d : Dependency) :
    tomlBlock modId mandatory d = "\n".intercalate (blockLines modId mandatory d) := by
  refine String.toList_inj.1 ?_
  delta tomlBlock
  simp [blockLines, setting]

/-! ## Delimiters -/

/-- The characters that end a field of a list of dependencies. -/
def delimiters : List Char := ['\n', '"', ';']

/-- A text that holds no delimiter. -/
def Undelimited (text : String) : Prop :=
  ∀ c ∈ delimiters, c ∉ text.toList

instance (text : String) : Decidable (Undelimited text) :=
  List.decidableBAll (fun c => c ∉ text.toList) delimiters

/-- What a dependency must be like for its lists to be read back. -/
structure Readable (d : Dependency) : Prop where
  id : Undelimited d.id
  /-- An at sign would end the id of a requirement. -/
  noAt : '@' ∉ d.id.toList
  versions : Undelimited d.versions

theorem Undelimited.append {a b : String} (ha : Undelimited a) (hb : Undelimited b) :
    Undelimited (a ++ b) := by
  intro c hc hmem
  rw [String.toList_append, List.mem_append] at hmem
  exact hmem.elim (ha c hc) (hb c hc)

theorem undelimited_decimal (n : Nat) : Undelimited (decimal n) := by
  intro c hc hmem
  have hdigit : c.isDigit = true := isDigit_of_mem_decimal hmem
  simp only [delimiters, List.mem_cons, List.not_mem_nil, or_false] at hc
  rcases hc with rfl | rfl | rfl <;> exact absurd hdigit (by decide)

theorem undelimited_text (api : ApiVersion) : Undelimited api.text :=
  ((undelimited_decimal api.major).append (by decide)).append (undelimited_decimal api.minor)

/-- The dependency on the core library can always be read back. -/
theorem readable_coreDependency (api : ApiVersion) : Readable (coreDependency api) where
  id := (by decide : Undelimited coreId)
  noAt := (by decide : '@' ∉ coreId.toList)
  versions :=
    ((((by decide : Undelimited "[").append (undelimited_text api)).append (by decide)).append
      (undelimited_text api.next)).append (by decide)

theorem readable_of_mem_allDependencies {m : Mod} (h : ∀ d ∈ m.dependencies, Readable d)
    (api : ApiVersion) : ∀ d ∈ allDependencies m api, Readable d := by
  intro d hd
  rcases List.mem_append.1 hd with hd | hd
  · exact h d hd
  · rw [List.mem_singleton.1 hd]
    exact readable_coreDependency api

/-! ## Reading the lists -/

section Lists

variable {d : Dependency} {brand : Brand} {modId mandatory : String}

theorem semicolon_not_mem_requirement (h : Readable d) : ';' ∉ (requirement d).toList := by
  have hid : ';' ∉ d.id.toList := h.id ';' (by decide)
  have hversions : ';' ∉ d.versions.toList := h.versions ';' (by decide)
  simp [toList_requirement, hid, hversions]

/-- A line of requirements is read back. -/
theorem readRequirement?_requirements {ds : List Dependency} (h : ∀ d ∈ ds, Readable d)
    (hne : ds ≠ []) : (pieces "; " (requirements ds)).map readRequirement? = ds.map some := by
  have hpieces : pieces "; " (requirements ds) = ds.map requirement := by
    refine pieces_intercalate (by decide) (fun part hpart => ?_) (by simpa using hne)
    obtain ⟨d, hd, rfl⟩ := List.mem_map.1 hpart
    exact apart_of_not_mem (semicolon_not_mem_requirement (h d hd))
  rw [hpieces, List.map_map]
  exact List.map_congr_left fun d hd => readRequirement?_requirement (h d hd).noAt

/-- The line by which a brand demands a dependency is no setting with a quoted value. -/
theorem readSetting?_mandatory (h : mandatoryLine? brand = some mandatory) :
    readSetting? ("    " ++ mandatory).toList = none := by
  cases brand <;> cases h <;> decide

theorem fields_tomlBlock (hmod : Undelimited modId) (hd : Readable d)
    (h : mandatoryLine? brand = some mandatory) :
    fields '\n' (tomlBlock modId mandatory d).toList =
      (blockLines modId mandatory d).map String.toList := by
  have hmodId : '\n' ∉ modId.toList := hmod '\n' (by decide)
  have hid : '\n' ∉ d.id.toList := hd.id '\n' (by decide)
  have hversions : '\n' ∉ d.versions.toList := hd.versions '\n' (by decide)
  have hmandatory : '\n' ∉ mandatory.toList := by cases brand <;> cases h <;> decide
  have hmark : "\n".toList = ['\n'] := rfl
  rw [tomlBlock_eq, String.toList_intercalate, hmark]
  refine fields_intercalate ?_ (by simp [blockLines])
  simp [blockLines, setting, hmodId, hid, hversions, hmandatory]

/-- The lines of a block behind its header are four settings and the demand of the brand. -/
theorem filterMap_readSetting? (hd : Readable d) (h : mandatoryLine? brand = some mandatory) :
    ((blockLines modId mandatory d).tail.map String.toList).filterMap readSetting? =
      [("modId", d.id), ("versionRange", d.versions), ("ordering", "BEFORE"),
        ("side", "BOTH")] := by
  have hid : readSetting? (setting "modId" d.id).toList = some ("modId", d.id) :=
    readSetting?_setting (by decide) (hd.id '"' (by decide))
  have hversions :
      readSetting? (setting "versionRange" d.versions).toList = some ("versionRange", d.versions) :=
    readSetting?_setting (by decide) (hd.versions '"' (by decide))
  have hordering :
      readSetting? (setting "ordering" "BEFORE").toList = some ("ordering", "BEFORE") :=
    readSetting?_setting (by decide) (by decide)
  have hside : readSetting? (setting "side" "BOTH").toList = some ("side", "BOTH") :=
    readSetting?_setting (by decide) (by decide)
  simp only [blockLines, List.tail_cons, List.map_cons, List.map_nil, List.filterMap_cons,
    List.filterMap_nil, hid, readSetting?_mandatory h, hversions, hordering, hside]

theorem readBlock?_tomlBlock (hmod : Undelimited modId) (hd : Readable d)
    (h : mandatoryLine? brand = some mandatory) :
    readBlock? (tomlBlock modId mandatory d) = some (modId, d) := by
  have hlines : (blockLines modId mandatory d).map String.toList =
      ("[[dependencies." ++ modId ++ "]]").toList ::
        (blockLines modId mandatory d).tail.map String.toList := rfl
  rw [readBlock?, fields_tomlBlock hmod hd h, hlines]
  simp only [filterMap_readSetting? hd h, readHeader?_header]
  rfl

/-- Blocks are read back. -/
theorem readBlock?_tomlBlocks {ds : List Dependency} (hmod : Undelimited modId)
    (hds : ∀ d ∈ ds, Readable d) (hne : ds ≠ []) (h : mandatoryLine? brand = some mandatory) :
    (pieces "\n\n" ("\n\n".intercalate (ds.map (tomlBlock modId mandatory)))).map readBlock? =
      ds.map fun d => some (modId, d) := by
  have hpieces : pieces "\n\n" ("\n\n".intercalate (ds.map (tomlBlock modId mandatory))) =
      ds.map (tomlBlock modId mandatory) := by
    refine pieces_intercalate (by decide) (fun part hpart => ?_) (by simpa using hne)
    obtain ⟨d, hd, rfl⟩ := List.mem_map.1 hpart
    refine apart_blankLine ?_
    rw [fields_tomlBlock hmod (hds d hd) h]
    simp [blockLines, setting]
  rw [hpieces, List.map_map]
  refine List.map_congr_left fun d hd => ?_
  rw [Function.comp_apply, readBlock?_tomlBlock hmod (hds d hd) h]

end Lists

/-! ## The lists of a build -/

/-- The lists of dependencies in a table that was built can be read back, and both are about
the dependencies of the mod in their order with the core library behind them, from the API
version of the table up to the next one.  The line of requirements is there for every brand.
For a brand that reads TOML every block belongs to the mod, and for any other one there is
no block. -/
theorem build_lists_dependencies {dialect : Dialect} {d : Descriptor} {v : Variant}
    {version : String} {artifact : Artifact} {t : Table}
    (h : build dialect d v version artifact = .ok t) (hmod : Undelimited d.mod.id)
    (hdependencies : ∀ dep ∈ d.mod.dependencies, Readable dep) :
    ∃ (api next line blocks : String) (declared : List Dependency),
      t.get? "UMC_API" = some api ∧
      t.get? "UMC_API_NEXT" = some next ∧
      t.get? "FORGE_STRING_DEPENDENCIES" = some line ∧
      t.get? "FORGE_TOML_DEPENDENCIES" = some blocks ∧
      declared =
        d.mod.dependencies ++ [⟨"universalmodcore", "[" ++ api ++ ", " ++ next ++ ")"⟩] ∧
      (pieces "; " line).map readRequirement? = declared.map some ∧
      (v.brand = .forge ∨ v.brand = .neoforge →
        (pieces "\n\n" blocks).map readBlock? = declared.map fun dep => some (d.mod.id, dep)) ∧
      (v.brand = .fabric ∨ v.brand = .quilt → blocks = "") := by
  obtain ⟨api, -, hvalue⟩ := get?_of_build h
  have hreadable := readable_of_mem_allDependencies hdependencies api
  have hne : allDependencies d.mod api ≠ [] := by simp [allDependencies]
  refine ⟨api.text, api.next.text, requirements (allDependencies d.mod api),
    (tomlBlocks? v.brand d.mod.id (allDependencies d.mod api)).getD "", allDependencies d.mod api,
    hvalue (by simp [entriesOf]), hvalue (by simp [entriesOf]),
    hvalue (by simp [entriesOf]), hvalue (by simp [entriesOf]), rfl,
    readRequirement?_requirements hreadable hne, fun htoml => ?_, fun hother => ?_⟩
  · obtain ⟨mandatory, hmandatory⟩ : ∃ mandatory, mandatoryLine? v.brand = some mandatory := by
      rcases htoml with hbrand | hbrand <;> exact ⟨_, congrArg mandatoryLine? hbrand⟩
    rw [tomlBlocks?, hmandatory]
    exact readBlock?_tomlBlocks hmod hreadable hne hmandatory
  · have hmandatory : mandatoryLine? v.brand = none := by
      rcases hother with hbrand | hbrand <;> exact congrArg mandatoryLine? hbrand
    rw [tomlBlocks?, hmandatory]
    rfl

/-- A descriptor with two dependencies, the range of one holding an at sign. -/
def twoDependencies : Descriptor where
  mod := {
    pkg := "p", className := "C", name := "N", id := "i", version := "1"
    dependencies := [⟨"other", "[2.0,)"⟩, ⟨"third mod", "[1, 2@3)"⟩]
    libraries := [] }
  core := ⟨"2.5", none⟩
  integration := none

theorem build_lists_dependencies_two :
    ∃ t line blocks,
      build .shadow twoDependencies ⟨"1.21", .neoforge⟩ "2.5" (.file ⟨.slash, ["u.jar"]⟩) = .ok t ∧
      t.get? "FORGE_STRING_DEPENDENCIES" = some line ∧
      t.get? "FORGE_TOML_DEPENDENCIES" = some blocks ∧
      (pieces "; " line).map readRequirement? =
        [some ⟨"other", "[2.0,)"⟩, some ⟨"third mod", "[1, 2@3)"⟩,
          some ⟨"universalmodcore", "[2.5, 2.6)"⟩] ∧
      (pieces "\n\n" blocks).map readBlock? =
        [some ("i", ⟨"other", "[2.0,)"⟩), some ("i", ⟨"third mod", "[1, 2@3)"⟩),
          some ("i", ⟨"universalmodcore", "[2.5, 2.6)"⟩)] := by
  have hapi : ((build .shadow twoDependencies ⟨"1.21", .neoforge⟩ "2.5"
      (.file ⟨.slash, ["u.jar"]⟩)).toOption.map fun t =>
        (t.get? "UMC_API", t.get? "UMC_API_NEXT")) = some (some "2.5", some "2.6") := by
    decide +kernel
  cases hbuild : build .shadow twoDependencies ⟨"1.21", .neoforge⟩ "2.5"
      (.file ⟨.slash, ["u.jar"]⟩) with
  | error e =>
    rw [hbuild] at hapi
    cases hapi
  | ok t =>
    rw [hbuild] at hapi
    have hversions : (t.get? "UMC_API", t.get? "UMC_API_NEXT") = (some "2.5", some "2.6") :=
      Option.some.inj hapi
    obtain ⟨hfirst, hlast⟩ := Prod.mk.inj hversions
    have hdependencies : ∀ dep ∈ twoDependencies.mod.dependencies, Readable dep := by
      simp only [twoDependencies, List.forall_mem_cons, List.not_mem_nil, false_imp_iff,
        implies_true, and_true]
      exact ⟨⟨by decide, by decide, by decide⟩, ⟨by decide, by decide, by decide⟩⟩
    obtain ⟨api, next, line, blocks, declared, hapi, hnext, hline, hblocks, hdeclared,
      hrequirements, htoml, -⟩ := build_lists_dependencies hbuild (by decide) hdependencies
    have hapi' : "2.5" = api := Option.some.inj (hfirst.symm.trans hapi)
    have hnext' : "2.6" = next := Option.some.inj (hlast.symm.trans hnext)
    subst hapi' hnext' hdeclared
    exact ⟨t, line, blocks, rfl, hline, hblocks, hrequirements, htoml (.inr rfl)⟩

end Variables

end ModBuild
