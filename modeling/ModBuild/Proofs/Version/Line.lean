import ModBuild.Proofs.Encoding.Utf8
import ModBuild.Proofs.Files.Access
import ModBuild.Proofs.Text.Blank
import ModBuild.Proofs.Text.Line
import ModBuild.Version.Line

/-!
# What a version line says

A build file has a version exactly if one of its lines has the given start, and the first
such line tells it (`ofLines?_eq_some_iff`).  The version has no quotation marks and no line
breaks in it and no blanks around it (`Bare`).  Every text of this kind can be assigned: it is
read off a line that puts it behind the start, whatever spaces, tabs and quotation marks are
around it, whatever lines without the start are before it and whatever follows
(`ofText?_of_assigns`).
-/

namespace ModBuild.Version

open ModBuild.Action Text

variable {start version text : List Char}

/-- A text as a version line can give it. -/
structure Bare (version : List Char) : Prop where
  noQuote : '"' ∉ version
  oneLine : ∀ c ∈ version, isLineBreak c = false
  trimmed : Trimmed version

/-! ## The rest of a line -/

theorem bare_ofRest {rest : List Char} (h : ∀ c ∈ rest, isLineBreak c = false) :
    Bare (ofRest rest) where
  noQuote := by
    intro hmem
    have hfilter := mem_of_mem_trim hmem
    simp at hfilter
  oneLine := fun c hc => h c (List.mem_filter.1 (mem_of_mem_trim hc)).1
  trimmed := trimmed_trim _

/-- The spaces, tabs and quotation marks around a version are taken off. -/
theorem ofRest_around {front back : List Char} (hversion : Bare version)
    (h : ∀ c ∈ front ++ back, c ∈ [' ', '\t', '"']) :
    ofRest (front ++ version ++ back) = version := by
  have hsame : version.filter (· ≠ '"') = version := by
    refine List.filter_eq_self.2 fun c hc => ?_
    have hne : c ≠ '"' := fun he => hversion.noQuote (he ▸ hc)
    simp [hne]
  have hblank : ∀ cs : List Char, (∀ c ∈ cs, c ∈ [' ', '\t', '"']) →
      ∀ c ∈ cs.filter (· ≠ '"'), isBlank c = true := by
    intro cs hcs c hc
    obtain ⟨hmem, hne⟩ := List.mem_filter.1 hc
    have hpadding := hcs c hmem
    simp only [List.mem_cons, List.not_mem_nil, or_false] at hpadding
    rcases hpadding with rfl | rfl | rfl
    · rfl
    · rfl
    · simp at hne
  rw [ofRest, List.filter_append, List.filter_append, hsame]
  exact trim_around (hblank front fun c hc => h c (List.mem_append_left back hc))
    hversion.trimmed (hblank back fun c hc => h c (List.mem_append_right front hc))

/-! ## The first line with the start -/

/-- The first line with the start tells the version. -/
theorem ofLines?_eq_some_iff {ls : List (List Char)} :
    ofLines? start ls = some version ↔
      ∃ before l behind, ls = before ++ l :: behind ∧ (∀ b ∈ before, ¬ start <+: b) ∧
        start <+: l ∧ version = ofRest (l.drop start.length) := by
  rw [ofLines?, Option.map_eq_some_iff]
  constructor
  · rintro ⟨l, hfind, rfl⟩
    obtain ⟨hl, before, behind, rfl, hbefore⟩ := List.find?_eq_some_iff_append.1 hfind
    refine ⟨before, l, behind, rfl, fun b hb => ?_, List.isPrefixOf_iff_prefix.1 hl, rfl⟩
    simpa [← List.isPrefixOf_iff_prefix] using hbefore b hb
  · rintro ⟨before, l, behind, rfl, hbefore, hl, rfl⟩
    refine ⟨l, List.find?_eq_some_iff_append.2 ⟨List.isPrefixOf_iff_prefix.2 hl, before, behind,
      rfl, fun b hb => ?_⟩, rfl⟩
    simpa [← List.isPrefixOf_iff_prefix] using hbefore b hb

theorem ofLines?_eq_none_iff {ls : List (List Char)} :
    ofLines? start ls = none ↔ ¬ ∃ l ∈ ls, start <+: l := by
  simp [ofLines?, List.find?_eq_none, List.isPrefixOf_iff_prefix]

theorem bare_of_ofText? (h : ofText? start text = some version) : Bare version := by
  obtain ⟨before, l, behind, hlines, -, -, rfl⟩ := ofLines?_eq_some_iff.1 h
  have hl : l ∈ lines (unifyBreaks text) := by
    rw [hlines]
    simp
  exact bare_ofRest fun c hc => not_isLineBreak_of_mem_lines hl (List.mem_of_mem_drop hc)

/-! ## Assignments -/

/-- A text that assigns a version on the first line with the start. -/
inductive Assigns (start version : List Char) : List Char → Prop
  | intro {before front back behind : List Char}
      -- The lines before are whole, and none has the start.
      (whole : before = [] ∨ EndsLine before)
      (earlier : ∀ l ∈ lines (unifyBreaks before), ¬ start <+: l)
      (around : ∀ c ∈ front ++ back, c ∈ [' ', '\t', '"'])
      -- The line ends.  At the end of a text an empty line is none.
      (ends : (∃ c ∈ behind.head?, isLineBreak c = true) ∨
        behind = [] ∧ start ++ (front ++ version ++ back) ≠ []) :
      Assigns start version (before ++ (start ++ (front ++ version ++ back) ++ behind))

/-- The line is among the lines of the text, and those before it are as they were. -/
theorem lines_between {before line behind : List Char} (whole : before = [] ∨ EndsLine before)
    (hempty : line = [] → before = []) (hline : ∀ c ∈ line, isLineBreak c = false)
    (ends : (∃ c ∈ behind.head?, isLineBreak c = true) ∨ behind = [] ∧ line ≠ []) :
    ∃ ls, lines (unifyBreaks (before ++ (line ++ behind))) =
      lines (unifyBreaks before) ++ line :: ls := by
  have hreturn : '\r' ∉ line := fun hmem => absurd (hline _ hmem) (by decide)
  have hrest : ∃ ls, lines (unifyBreaks (line ++ behind)) = line :: ls := by
    rw [unifyBreaks_append_left hreturn]
    rcases ends with ⟨c, hc, hbreak⟩ | ⟨rfl, hne⟩
    · cases behind with
      | nil => cases hc
      | cons d behind =>
        cases hc
        obtain ⟨e, es, hes, he, hne⟩ := exists_unifyBreaks_eq_cons hbreak behind
        exact ⟨_, by rw [hes, lines_line_append hline he hne]⟩
    · exact ⟨[], by rw [unifyBreaks, List.append_nil, lines_line hline hne]⟩
  obtain ⟨ls, hls⟩ := hrest
  rcases whole with rfl | whole
  · exact ⟨ls, hls⟩
  · have hhead : (line ++ behind).head? ≠ some '\n' := by
      cases line with
      | nil => exact absurd (hempty rfl) whole.ne_nil
      | cons c line =>
        rintro ⟨⟩
        exact absurd (hline '\n' List.mem_cons_self) (by decide)
    refine ⟨ls, ?_⟩
    rw [unifyBreaks_append hhead, lines_append whole.unifyBreaks (return_not_mem_unifyBreaks _),
      hls]

/-- The version that is assigned is the one that is read. -/
theorem ofText?_of_assigns (hstart : ∀ c ∈ start, isLineBreak c = false) (hversion : Bare version)
    (h : Assigns start version text) : ofText? start text = some version := by
  cases h with
  | @intro before front back behind whole earlier around ends =>
    have hempty : start ++ (front ++ version ++ back) = [] → before = [] := by
      intro hnil
      obtain ⟨rfl, -⟩ := List.append_eq_nil_iff.1 hnil
      -- Every line has an empty start, so there is none before.
      refine unifyBreaks_eq_nil_iff.1 (lines_eq_nil_iff.1 ?_)
      exact List.eq_nil_iff_forall_not_mem.2 fun l hl => earlier l hl List.nil_prefix
    have haround : ∀ c ∈ front ++ back, isLineBreak c = false := by
      intro c hc
      have hpadding := around c hc
      simp only [List.mem_cons, List.not_mem_nil, or_false] at hpadding
      rcases hpadding with rfl | rfl | rfl <;> decide
    have hline : ∀ c ∈ start ++ (front ++ version ++ back), isLineBreak c = false := by
      intro c hc
      simp only [List.mem_append] at hc haround
      rcases hc with hc | (hc | hc) | hc
      · exact hstart c hc
      · exact haround c (Or.inl hc)
      · exact hversion.oneLine c hc
      · exact haround c (Or.inr hc)
    obtain ⟨ls, hls⟩ := lines_between whole hempty hline ends
    rw [ofText?, ofLines?_eq_some_iff]
    exact ⟨_, _, ls, hls, earlier, List.prefix_append _ _,
      by rw [List.drop_left, ofRest_around hversion around]⟩

/-! ## Reading a file -/

section File

variable {file : Path} {lead : String} {w : World}

theorem runIn_readLine_of_text (h : w.contents file = .ok (Encoding.Utf8.encode text)) :
    (readLine file lead).runIn w =
      (match ofText? lead.toList text with
        | some version => .ok (.ofList version)
        | none => .error (.noVersionLine lead file), w) := by
  have htext : Encoding.Utf8.decode (Encoding.Utf8.encode text) = .ok text :=
    Encoding.Utf8.decode_eq_ok_iff.2 rfl
  rw [readLine, runIn_bind_ok (runIn_attempt _ w), runIn_readFile, h]
  dsimp only
  rw [htext]
  dsimp only
  cases ofText? lead.toList text with
  | none => rfl
  | some version => rfl

/-- The version of a build file that is a text is what its first line with the start says.
It is bare, and there is none exactly if no line has the start.  Every bare version can be
assigned. -/
theorem readLine_first (h : w.contents file = .ok (Encoding.Utf8.encode text)) :
    ((∃ v, (readLine file lead).runIn w = (.ok v, w)) ↔
      ∃ l ∈ lines (unifyBreaks text), lead.toList <+: l) ∧
    ((readLine file lead).runIn w = (.error (.noVersionLine lead file), w) ↔
      ¬ ∃ l ∈ lines (unifyBreaks text), lead.toList <+: l) ∧
    (∀ v, (readLine file lead).runIn w = (.ok v, w) ↔
      ∃ before l behind, lines (unifyBreaks text) = before ++ l :: behind ∧
        (∀ b ∈ before, ¬ lead.toList <+: b) ∧ lead.toList <+: l ∧
        v.toList = trim ((l.drop lead.toList.length).filter (· ≠ '"'))) ∧
    (∀ v, (readLine file lead).runIn w = (.ok v, w) → Bare v.toList) ∧
    ∀ v : String, Bare v.toList → (∀ c ∈ lead.toList, isLineBreak c = false) →
      Assigns lead.toList v.toList text → (readLine file lead).runIn w = (.ok v, w) := by
  have hok : ∀ v, (readLine file lead).runIn w = (.ok v, w) ↔
      ofText? lead.toList text = some v.toList := by
    intro v
    rw [runIn_readLine_of_text h]
    cases ofText? lead.toList text with
    | none => simp
    | some version => simp [← String.toList_inj]
  have hnone : (readLine file lead).runIn w = (.error (.noVersionLine lead file), w) ↔
      ofText? lead.toList text = none := by
    rw [runIn_readLine_of_text h]
    cases ofText? lead.toList text with
    | none => simp
    | some version => simp
  refine ⟨?_, hnone.trans ofLines?_eq_none_iff, fun v => (hok v).trans ofLines?_eq_some_iff,
    fun v hv => bare_of_ofText? ((hok v).1 hv),
    fun v hv hlead hassigns => (hok v).2 (ofText?_of_assigns hlead hv hassigns)⟩
  have hsome : (∃ v, (readLine file lead).runIn w = (.ok v, w)) ↔
      ¬ ofText? lead.toList text = none := by
    constructor
    · rintro ⟨v, hv⟩ hnot
      rw [(hok v).1 hv] at hnot
      cases hnot
    · intro hnot
      obtain ⟨version, hversion⟩ := Option.ne_none_iff_exists'.1 hnot
      exact ⟨.ofList version, (hok _).2 (by simpa using hversion)⟩
  exact hsome.trans ((not_congr ofLines?_eq_none_iff).trans not_not)

end File

/-- A build file with three kinds of line breaks. -/
def quotedText : List Char :=
  "id = 1\r\n v = \"0\"\x0cv = \t\"1.2 b\" \"\rv = 3".toList

/-- A world with this build file. -/
def quotedWorld : World :=
  .offline ⟨[(["build.gradle"], .file (Encoding.Utf8.encode quotedText))]⟩

theorem readLine_first_quoted :
    quotedWorld.contents (.ofString "build.gradle") = .ok (Encoding.Utf8.encode quotedText) ∧
      Bare "1.2 b".toList ∧ Assigns "v =".toList "1.2 b".toList quotedText ∧
      (readLine (.ofString "build.gradle") "v =").runIn quotedWorld =
        (.ok "1.2 b", quotedWorld) := by
  have hfile : quotedWorld.contents (.ofString "build.gradle") =
      .ok (Encoding.Utf8.encode quotedText) := by
    decide +kernel
  have hbare : Bare "1.2 b".toList := by
    refine ⟨by simp, by simp [isLineBreak], ⟨?_, ?_⟩⟩ <;> simp [isBlank]
  have hlead : ∀ c ∈ "v =".toList, isLineBreak c = false := by simp [isLineBreak]
  have hassigns : Assigns "v =".toList "1.2 b".toList quotedText := by
    have hbefore : lines (unifyBreaks "id = 1\r\n v = \"0\"\x0c".toList) =
        ["id = 1".toList, " v = \"0\"".toList] := by
      decide +kernel
    refine @Assigns.intro _ _ "id = 1\r\n v = \"0\"\x0c".toList " \t\"".toList
      "\" \"".toList "\rv = 3".toList (Or.inr ?_) ?_ (by simp) (Or.inl ?_)
    · exact ⟨"id = 1\r\n v = \"0\"".toList, '\x0c', by simp, by decide⟩
    · rw [hbefore]
      simp
    · exact ⟨'\r', by simp, by decide⟩
  obtain ⟨-, -, -, -, hread⟩ := @readLine_first quotedText (.ofString "build.gradle") "v =" _ hfile
  exact ⟨hfile, hbare, hassigns, hread "1.2 b" hbare hlead hassigns⟩

end ModBuild.Version
