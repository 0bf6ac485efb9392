import Mathlib.Data.List.Forall2
import ModBuild.Proofs.Text.Split
import ModBuild.Proofs.Variables.Build

/-!
# The lists of libraries

Three variables list the libraries that are for the variant, in the order of the
descriptor.  One has an entry for each of them (`Declares`), one for each that is relocated
(`Relocates`), and one for each repository, the flat directories being a single entry in
front.  The entries are joined by line feeds (`Lists`).  No entry ends in one, and
fields without line feeds give entries without, but for the flat directories, which take
three lines.  So no list ends in a line feed, and its lines can be counted
(`build_lists_libraries`).
-/

namespace ModBuild

/-- No field of a library that is written holds a line feed. -/
structure Library.OneLine (l : Library) : Prop where
  artifact : '\n' ∉ l.artifact.toList
  declaration : '\n' ∉ l.declaration.toList
  maven : ∀ repository, l.origin = .maven repository → '\n' ∉ repository.toList
  flatDir : ∀ directory, l.origin = .flatDir directory → '\n' ∉ directory.toList
  file : ∀ path, l.origin = .file path → '\n' ∉ path.toList
  relocation : ∀ r, l.relocation = some r → '\n' ∉ r.source.toList ∧ '\n' ∉ r.target.toList

theorem Origin.directory?_eq_some {o : Origin} {directory : String}
    (h : o.directory? = some directory) : o = .flatDir directory := by
  cases o <;> cases h
  rfl

theorem Origin.repository?_eq_some {o : Origin} {repository : String}
    (h : o.repository? = some repository) : o = .maven repository := by
  cases o <;> cases h
  rfl

namespace Variables

/-! ## Entries -/

/-- The entry that declares a library, a file by its path and any other by its
coordinate. -/
inductive Declares : Library → String → Prop where
  | file {l : Library} {path : String} :
    l.origin = .file path →
    Declares l ("\t" ++ l.declaration ++ " files('" ++ path ++ "')")
  | maven {l : Library} {repository : String} :
    l.origin = .maven repository →
    Declares l ("\t" ++ l.declaration ++ " '" ++ l.artifact ++ "'")
  | flatDir {l : Library} {directory : String} :
    l.origin = .flatDir directory →
    Declares l ("\t" ++ l.declaration ++ " '" ++ l.artifact ++ "'")

/-- The entry that relocates the classes of a library. -/
inductive Relocates : Library → String → Prop where
  | intro {l : Library} {r : Relocation} :
    l.relocation = some r →
    Relocates l ("\trelocate '" ++ r.source ++ "', '" ++ r.target ++ "'")

/-- The entries for some repositories: one for all directories, if there are any, and one
for each URL behind it. -/
def repositoryEntries (directories urls : List String) : List String :=
  (if directories = [] then []
    else ["\tflatDir \x7b\n\t\tdirs " ++ ", ".intercalate directories ++ "\n\t\x7d"]) ++
  urls.map fun url => "\tmaven \x7b url = \"" ++ url ++ "\" \x7d"

/-! ## Lists -/

/-- The number of the lines of a text.  A text without characters has none. -/
def lineCount (text : String) : Nat :=
  if text = "" then 0 else (Text.fields '\n' text.toList).length

/-- A variable lists some entries, each on a line of its own, and the last one is not
closed by a line feed. -/
structure Lists (t : Table) (name : String) (entries : List String) : Prop where
  value : t.get? name = some ("\n".intercalate entries)
  openEnd : ("\n".intercalate entries).toList.getLast? ≠ some '\n'

/-- A text that ends, but not in a line feed. -/
def Ends (text : String) : Prop :=
  ∃ front c, text.toList = front ++ [c] ∧ c ≠ '\n'

theorem Ends.append {b : String} (h : Ends b) (a : String) : Ends (a ++ b) := by
  obtain ⟨front, c, hb, hc⟩ := h
  exact ⟨a.toList ++ front, c, by rw [String.toList_append, hb, List.append_assoc], hc⟩

theorem Ends.ne_empty {text : String} (h : Ends text) : text ≠ "" := by
  rintro rfl
  obtain ⟨front, c, hnil, -⟩ := h
  simp at hnil

theorem getLast?_joinLines {entries : List String} (h : ∀ e ∈ entries, Ends e) :
    (joinLines entries).toList.getLast? ≠ some '\n' := by
  rcases List.eq_nil_or_concat entries with rfl | ⟨front, e, rfl⟩
  · simp [joinLines]
  · have he : Ends (joinLines (front ++ [e])) := by
      have hlast : Ends e := h e (by simp)
      by_cases hf : front = []
      · simpa [joinLines, hf] using hlast
      · rw [joinLines, String.intercalate_append_of_ne_nil hf (List.cons_ne_nil e []),
          String.intercalate_singleton]
        exact hlast.append _
    obtain ⟨start, c, hlines, hc⟩ := he
    simpa [hlines] using hc

theorem lineCount_joinLines {entries : List String} (h : ∀ e ∈ entries, '\n' ∉ e.toList)
    (hne : ∀ e ∈ entries, e ≠ "") : lineCount (joinLines entries) = entries.length := by
  cases entries with
  | nil => rfl
  | cons e es =>
    have he : e ≠ "" := hne e List.mem_cons_self
    have hlines : joinLines (e :: es) ≠ "" := by
      cases es with
      | nil => simpa [joinLines] using he
      | cons f fs => simp [joinLines, he]
    have hfields : ∀ f ∈ (e :: es).map String.toList, '\n' ∉ f := by
      intro f hf
      obtain ⟨g, hg, rfl⟩ := List.mem_map.1 hf
      exact h g hg
    have hmark : "\n".toList = ['\n'] := rfl
    rw [lineCount, if_neg hlines, joinLines, String.toList_intercalate, hmark,
      Text.fields_intercalate hfields (by simp), List.length_map]

/-! ## The entries of a library -/

section Entries

variable {l : Library} {e : String}

theorem declares_declarationLine (l : Library) : Declares l (declarationLine l) := by
  cases horigin : l.origin with
  | file path =>
    have h := Declares.file horigin
    rw [declarationLine, horigin]
    simpa [String.append_assoc] using h
  | maven repository =>
    have h := Declares.maven horigin
    rw [declarationLine, horigin]
    simpa [String.append_assoc] using h
  | flatDir directory =>
    have h := Declares.flatDir horigin
    rw [declarationLine, horigin]
    simpa [String.append_assoc] using h

theorem Declares.ends (h : Declares l e) : Ends e := by
  have hquote : Ends "'" := ⟨[], '\'', rfl, by decide⟩
  have hparen : Ends "')" := ⟨['\''], ')', rfl, by decide⟩
  cases h with
  | file => exact hparen.append _
  | maven => exact hquote.append _
  | flatDir => exact hquote.append _

theorem Declares.oneLine (h : Declares l e) (hl : l.OneLine) : '\n' ∉ e.toList := by
  cases h with
  | file horigin => simp [hl.declaration, hl.file _ horigin]
  | maven => simp [hl.declaration, hl.artifact]
  | flatDir => simp [hl.declaration, hl.artifact]

theorem Relocates.ends (h : Relocates l e) : Ends e := by
  have hquote : Ends "'" := ⟨[], '\'', rfl, by decide⟩
  cases h with
  | intro => exact hquote.append _

theorem Relocates.oneLine (h : Relocates l e) (hl : l.OneLine) : '\n' ∉ e.toList := by
  cases h with
  | intro hr =>
    obtain ⟨hsource, htarget⟩ := hl.relocation _ hr
    simp [hsource, htarget]

/-- The directories of some repositories as they stand in their entry. -/
theorem not_mem_intercalate {ds : List String} (h : ∀ d ∈ ds, '\n' ∉ d.toList) :
    '\n' ∉ (", ".intercalate ds).toList := by
  induction ds with
  | nil => simp
  | cons d ds ih =>
    have hd : '\n' ∉ d.toList := h d List.mem_cons_self
    have hds := ih fun e he => h e (List.mem_cons_of_mem d he)
    cases ds with
    | nil => simpa using hd
    | cons e es => simpa [hd] using hds

theorem ends_of_mem_repositoryEntries {ds us : List String} (h : e ∈ repositoryEntries ds us) :
    Ends e := by
  have hblock : Ends "\n\t\x7d" := ⟨['\n', '\t'], '\x7d', rfl, by decide⟩
  have hmaven : Ends "\" \x7d" := ⟨['"', ' '], '\x7d', rfl, by decide⟩
  rcases List.mem_append.1 h with h | h
  · split at h
    · cases h
    · rw [List.mem_singleton.1 h]
      exact hblock.append _
  · obtain ⟨u, -, rfl⟩ := List.mem_map.1 h
    exact hmaven.append _

end Entries

/-- Entries that are lists themselves can be opened. -/
theorem joinLines_joinLines {lines : List String} (hne : lines ≠ []) (entries : List String) :
    joinLines (joinLines lines :: entries) = joinLines (lines ++ entries) := by
  cases entries with
  | nil => simp [joinLines]
  | cons e es =>
    simp only [joinLines]
    rw [String.intercalate_append_of_ne_nil hne (List.cons_ne_nil e es),
      String.intercalate_cons_of_ne_nil (List.cons_ne_nil e es)]

/-- The lines of the entry for some directories. -/
theorem directories_joinLines (ds : List String) :
    "\tflatDir \x7b\n\t\tdirs " ++ ", ".intercalate ds ++ "\n\t\x7d" =
      joinLines ["\tflatDir \x7b", "\t\tdirs " ++ ", ".intercalate ds, "\t\x7d"] := by
  have hfirst : "\tflatDir \x7b\n\t\tdirs " = "\tflatDir \x7b" ++ ("\n" ++ "\t\tdirs ") := rfl
  have hlast : "\n\t\x7d" = "\n" ++ "\t\x7d" := rfl
  simp only [joinLines, String.intercalate_cons_cons, String.intercalate_singleton, hfirst, hlast,
    String.append_assoc]

/-- The flat directories take three lines, and any other entry takes one. -/
theorem lineCount_repositoryEntries {ds us : List String} (hds : ∀ d ∈ ds, '\n' ∉ d.toList)
    (hus : ∀ u ∈ us, '\n' ∉ u.toList) :
    lineCount (joinLines (repositoryEntries ds us)) =
      (if ds = [] then 0 else 3) + us.length := by
  have hmaven : ∀ e ∈ us.map (fun url => "\tmaven \x7b url = \"" ++ url ++ "\" \x7d"),
      '\n' ∉ e.toList ∧ e ≠ "" := by
    intro e he
    obtain ⟨u, hu, rfl⟩ := List.mem_map.1 he
    simp [hus u hu]
  rw [repositoryEntries]
  by_cases hnone : ds = []
  · rw [if_pos hnone, if_pos hnone, List.nil_append,
      lineCount_joinLines (fun e he => (hmaven e he).1) (fun e he => (hmaven e he).2),
      List.length_map, Nat.zero_add]
  · have hblock : ∀ e ∈ ["\tflatDir \x7b", "\t\tdirs " ++ ", ".intercalate ds, "\t\x7d"],
        '\n' ∉ e.toList ∧ e ≠ "" := by
      simp only [List.forall_mem_cons, List.not_mem_nil, false_imp_iff, implies_true, and_true]
      refine ⟨by decide, ⟨?_, by simp⟩, by decide⟩
      rw [String.toList_append, List.mem_append, not_or]
      exact ⟨by decide, not_mem_intercalate hds⟩
    have hlines := fun e he => (List.mem_append.1 he).elim (hblock e) (hmaven e)
    rw [if_neg hnone, if_neg hnone, directories_joinLines, List.singleton_append,
      joinLines_joinLines (List.cons_ne_nil _ _),
      lineCount_joinLines (fun e he => (hlines e he).1) (fun e he => (hlines e he).2),
      List.length_append, List.length_map]
    rfl

/-! ## The lists of a build -/

/-- The libraries that are relocated have an entry each. -/
theorem forall₂_relocates (used : List Library) :
    List.Forall₂ Relocates (used.filter fun l => l.relocation.isSome)
      ((used.filterMap Library.relocation).map relocationLine) := by
  induction used with
  | nil => exact .nil
  | cons l used ih =>
    cases hr : l.relocation with
    | none =>
      rw [List.filter_cons_of_neg (by simp [hr]), List.filterMap_cons_none hr]
      exact ih
    | some r =>
      rw [List.filter_cons_of_pos (by simp [hr]), List.filterMap_cons_some hr, List.map_cons]
      exact .cons (.intro hr) ih

/-- The repositories of some libraries are written with their entries. -/
theorem repositories_eq (used : List Library) :
    repositories used =
      joinLines (repositoryEntries (used.filterMap fun l => l.origin.directory?)
        (used.filterMap fun l => l.origin.repository?)) := by
  rw [repositories, repositoryEntries]
  split
  · rfl
  · rfl

theorem entries_of_forall₂ {R : Library → String → Prop} {P : String → Prop}
    {used : List Library} {entries : List String} (h : List.Forall₂ R used entries)
    (hR : ∀ l ∈ used, ∀ e, R l e → P e) : ∀ e ∈ entries, P e := by
  induction h with
  | nil => simp
  | @cons l e used entries hle _ ih =>
    intro f hf
    rcases List.mem_cons.1 hf with rfl | hf
    · exact hR l List.mem_cons_self f hle
    · exact ih (fun k hk => hR k (List.mem_cons_of_mem l hk)) f hf

/-- The three lists of libraries in a table that was built are about the libraries that are
for the variant, in the order of the descriptor.  One declares each of them.  One relocates
those that are relocated.  One holds the flat directories in a single entry, which is there
if any library has one, and behind it the Maven repositories.  No list ends in a line feed,
and unless a field of a library holds one, every entry is a line, but for the directories,
which are three. -/
theorem build_lists_libraries {dialect : Dialect} {d : Descriptor} {v : Variant}
    {version : String} {artifact : Artifact} {t : Table}
    (h : build dialect d v version artifact = .ok t) :
    ∃ (used : List Library) (declared relocated directories urls : List String),
      used = d.mod.libraries.filter (fun l => l.onlyIn = [] ∨ v.key ∈ l.onlyIn) ∧
      List.Forall₂ Declares used declared ∧
      List.Forall₂ Relocates (used.filter fun l => l.relocation.isSome) relocated ∧
      directories = used.filterMap (fun l => l.origin.directory?) ∧
      urls = used.filterMap (fun l => l.origin.repository?) ∧
      Lists t dialect.dependenciesKey declared ∧
      Lists t dialect.relocationKey relocated ∧
      Lists t "LIB_REPOS" (repositoryEntries directories urls) ∧
      ((∀ l ∈ used, l.OneLine) →
        lineCount ("\n".intercalate declared) = declared.length ∧
        lineCount ("\n".intercalate relocated) = relocated.length ∧
        lineCount ("\n".intercalate (repositoryEntries directories urls)) =
          (if directories = [] then 0 else 3) + urls.length) := by
  obtain ⟨api, -, hvalue⟩ := get?_of_build h
  have hdeclared : List.Forall₂ Declares (librariesFor d.mod v)
      ((librariesFor d.mod v).map declarationLine) := by
    rw [List.forall₂_map_right_iff]
    exact List.forall₂_same.2 fun l _ => declares_declarationLine l
  have hrelocated := forall₂_relocates (librariesFor d.mod v)
  have hends := entries_of_forall₂ hdeclared fun l _ e he => he.ends
  have hends' := entries_of_forall₂ hrelocated fun l _ e he => he.ends
  refine ⟨librariesFor d.mod v, _, _, _, _, rfl, hdeclared, hrelocated, rfl, rfl,
    ⟨hvalue (by simp [entriesOf, declarations, joinLines]), getLast?_joinLines hends⟩,
    ⟨hvalue (by simp [entriesOf, relocations, joinLines]), getLast?_joinLines hends'⟩,
    ⟨hvalue ?_, getLast?_joinLines fun e he => ends_of_mem_repositoryEntries he⟩,
    fun hline => ⟨?_, ?_, ?_⟩⟩
  · have hmem : ("LIB_REPOS", repositories (librariesFor d.mod v)) ∈
        entriesOf dialect d.mod v version api artifact := by
      simp [entriesOf]
    rw [repositories_eq] at hmem
    exact hmem
  · exact lineCount_joinLines
      (entries_of_forall₂ hdeclared fun l hl e he => he.oneLine (hline l hl))
      fun e he => (hends e he).ne_empty
  · exact lineCount_joinLines
      (entries_of_forall₂ hrelocated fun l hl e he =>
        he.oneLine (hline l (List.mem_of_mem_filter hl)))
      fun e he => (hends' e he).ne_empty
  · refine lineCount_repositoryEntries (fun e he => ?_) fun e he => ?_
    · obtain ⟨l, hl, hle⟩ := List.mem_filterMap.1 he
      exact (hline l hl).flatDir e (Origin.directory?_eq_some hle)
    · obtain ⟨l, hl, hle⟩ := List.mem_filterMap.1 he
      exact (hline l hl).maven e (Origin.repository?_eq_some hle)

/-- A descriptor with a library of each origin, and one that is for another variant. -/
def mixedLibraries : Descriptor where
  mod := {
    pkg := "p", className := "C", name := "N", id := "i", version := "1"
    dependencies := []
    libraries := [
      ⟨"a:a:1", "shade", some ⟨"a", "p.a"⟩, [], .maven "https://a"⟩,
      ⟨"b:b:1", "implementation", none, ["1.20-forge"], .flatDir "libs"⟩,
      ⟨"c:c:1", "shade", some ⟨"c", "p.c"⟩, ["1.20-fabric"], .maven "https://c"⟩,
      ⟨"d", "compileOnly", none, [], .file "d.jar"⟩] }
  core := ⟨"2.5", none⟩
  integration := none

theorem build_lists_libraries_mixed :
    ∃ t declarations relocations repositories,
      build .shadow mixedLibraries ⟨"1.20", .forge⟩ "2.5" (.file ⟨.slash, ["u.jar"]⟩) = .ok t ∧
      t.get? "SHADOW" = some declarations ∧ lineCount declarations = 3 ∧
      t.get? "RELOCATE" = some relocations ∧ lineCount relocations = 1 ∧
      t.get? "LIB_REPOS" = some repositories ∧ lineCount repositories = 4 := by
  have hok : (build .shadow mixedLibraries ⟨"1.20", .forge⟩ "2.5"
      (.file ⟨.slash, ["u.jar"]⟩)).isOk = true := by
    decide +kernel
  cases hbuild : build .shadow mixedLibraries ⟨"1.20", .forge⟩ "2.5"
      (.file ⟨.slash, ["u.jar"]⟩) with
  | error e =>
    rw [hbuild] at hok
    cases hok
  | ok t =>
    obtain ⟨used, declared, relocated, directories, urls, hused, hdeclared, hrelocated, hds, hus,
      hdeclarations, hrelocations, hrepositories, hlines⟩ := build_lists_libraries hbuild
    have hline : ∀ l ∈ used, l.OneLine := by
      intro l hl
      rw [hused] at hl
      have hmem : l ∈ mixedLibraries.mod.libraries := List.mem_of_mem_filter hl
      simp only [mixedLibraries, List.mem_cons, List.not_mem_nil, or_false] at hmem
      rcases hmem with rfl | rfl | rfl | rfl <;>
        exact ⟨by decide, by decide, by rintro _ ⟨⟩ <;> decide, by rintro _ ⟨⟩ <;> decide,
          by rintro _ ⟨⟩ <;> decide, by rintro _ ⟨⟩ <;> decide⟩
    obtain ⟨h₁, h₂, h₃⟩ := hlines hline
    refine ⟨t, _, _, _, rfl, hdeclarations.value, ?_, hrelocations.value, ?_,
      hrepositories.value, ?_⟩
    · rw [h₁, ← hdeclared.length_eq, hused]
      decide +kernel
    · rw [h₂, ← hrelocated.length_eq, hused]
      decide +kernel
    · rw [h₃, hds, hus, hused]
      decide +kernel

end Variables

end ModBuild
