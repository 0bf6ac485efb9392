import ModBuild.Proofs.Encoding.Scheme
import ModBuild.Proofs.Encoding.Utf8
import ModBuild.Proofs.Template.Render

/-!
# When octets cannot be rendered

Octets are read, rendered and written in one scheme.  They can be read unless they are no text in
it.  Nothing that was read is refused when it is written, and of all that is written only the
values come from elsewhere.  So writing fails if and
only if a value that is written has a code point that the scheme refuses, and the values that are
written are those of the words of the cut and of the empty token (`exists_mem_replace_iff`).  The
fault is the first run of such code points in the text with the values in it, where the values of
two tokens side by side can make up one run (`renderPoints_fails`).

UTF-8 refuses surrogates only.  A table whose values hold none is always written.
-/

namespace ModBuild.Template

open Encoding

/-! ## The items of a rendering -/

section Replaced

variable {α : Type} {value : List α → List α} {items : List (Item α)} {a : α}

/-- A word is replaced in a text: it is an item of the text that is cut by all words, or it is
empty. -/
def Replaced (words : List (List α)) (text w : List α) : Prop :=
  w = [] ∨ ∃ items, Cut words text items ∧ .word w ∈ items

/-- What is written comes from the value of the empty word, from that of a word of the text, or
from the text itself. -/
theorem mem_rendering (h : a ∈ rendering value items) :
    a ∈ value [] ∨ (∃ w, .word w ∈ items ∧ a ∈ value w) ∨ a ∈ items.flatMap Item.source := by
  rcases List.mem_append.1 h with hitems | hempty
  · obtain ⟨i, hi, ha⟩ := List.mem_flatMap.1 hitems
    cases i with
    | word w => exact Or.inr (Or.inl ⟨w, hi, ha⟩)
    | single b =>
      rcases List.mem_append.1 ha with hempty | hsingle
      · exact Or.inl hempty
      · exact Or.inr (Or.inr (List.mem_flatMap.2 ⟨_, hi, hsingle⟩))
  · exact Or.inl hempty

theorem mem_rendering_of_empty (h : a ∈ value []) (items : List (Item α)) :
    a ∈ rendering value items :=
  List.mem_append_right _ h

theorem mem_rendering_of_word {w : List α} (hw : .word w ∈ items) (h : a ∈ value w) :
    a ∈ rendering value items :=
  List.mem_append_left _ (List.mem_flatMap.2 ⟨_, hw, h⟩)

/-- Items with a property that no item of the text has are those of the values that replace a
word. -/
theorem exists_mem_replace_iff [DecidableEq α] {rs : List (Replacement α)}
    (hn : (words rs).Nodup) {P : α → Prop} {text : List α} (htext : ∀ a ∈ text, ¬ P a) :
    (∃ a ∈ replace rs text, P a) ↔
      ∃ r ∈ rs, Replaced (words rs) text r.word ∧ ∃ a ∈ r.value, P a := by
  obtain ⟨items, hcut⟩ := Cut.exists (words rs) text
  rw [replace_of_cut hn hcut]
  constructor
  · rintro ⟨a, ha, hP⟩
    have hvalue {w : List α} (hw : Replaced (words rs) text w) (hmem : a ∈ valueOf rs w) :
        ∃ r ∈ rs, Replaced (words rs) text r.word ∧ ∃ a ∈ r.value, P a := by
      by_cases hword : w ∈ words rs
      · obtain ⟨r, hr, rfl⟩ := List.mem_map.1 hword
        rw [valueOf_of_mem hn hr] at hmem
        exact ⟨r, hr, hw, a, hmem, hP⟩
      · rw [valueOf_of_not_mem hword] at hmem
        cases hmem
    rcases mem_rendering ha with hempty | ⟨w, hw, hword⟩ | hsource
    · exact hvalue (Or.inl rfl) hempty
    · exact hvalue (Or.inr ⟨items, hcut, hw⟩) hword
    · rw [hcut.flatMap_source] at hsource
      exact absurd hP (htext a hsource)
  · rintro ⟨r, hr, hreplaced, a, ha, hP⟩
    rw [← valueOf_of_mem hn hr] at ha
    rcases hreplaced with hempty | ⟨items', hcut', hw⟩
    · rw [hempty] at ha
      exact ⟨a, mem_rendering_of_empty ha items, hP⟩
    · rw [hcut'.unique hcut] at hw
      exact ⟨a, mem_rendering_of_word hw ha, hP⟩

end Replaced

/-! ## Failures -/

section Failures

variable {scheme : Scheme} {delimited : Bool} {table : List (List Point × List Point)}
variable {octets : List UInt8} {text : List Char}

theorem words_pointReplacements_nodup (delimited : Bool) (h : (table.map (·.1)).Nodup) :
    (words (pointReplacements delimited table)).Nodup := by
  have hwords : words (pointReplacements delimited table) =
      (table.map (·.1)).map (enclosed (.char '#') delimited) := by
    simp [words, pointReplacements, Function.comp_def]
  rw [hwords]
  exact List.Pairwise.map _ (fun _ _ hne he => hne (enclosed_injective he)) h

theorem renderPoints_decode_iff {e : DecodeError} :
    renderPoints scheme delimited table octets = .error (.decode e) ↔
      scheme.decode octets = .error e := by
  rw [renderPoints]
  cases scheme.decode octets with
  | error e' => simp
  | ok text =>
    dsimp only
    cases scheme.encode (replace (pointReplacements delimited table) (text.map .char)) <;> simp

theorem renderPoints_encode_iff (h : scheme.decode octets = .ok text) {e : EncodeError} :
    renderPoints scheme delimited table octets = .error (.encode e) ↔
      scheme.encodeFrom 0 (replace (pointReplacements delimited table) (text.map .char)) =
        .error e := by
  rw [renderPoints, h]
  dsimp only [Scheme.encode]
  cases scheme.encodeFrom 0 (replace (pointReplacements delimited table) (text.map .char)) <;> simp

/-- Writing fails if a value that replaces a token has a code point that is refused. -/
theorem renderPoints_refused_iff (hnames : (table.map (·.1)).Nodup)
    (h : scheme.decode octets = .ok text) :
    (∃ e, renderPoints scheme delimited table octets = .error (.encode e)) ↔
      ∃ r ∈ pointReplacements delimited table,
        Replaced (words (pointReplacements delimited table)) (text.map .char) r.word ∧
          ∃ p ∈ r.value, scheme.Refuses p := by
  have htext : ∀ p ∈ text.map Point.char, ¬ scheme.Refuses p :=
    List.forall_mem_map.2 (Scheme.not_refuses_of_decode h)
  simp only [renderPoints_encode_iff h]
  exact Scheme.encodeFrom_fails_iff.trans
    (exists_mem_replace_iff (words_pointReplacements_nodup delimited hnames) htext)

end Failures

/-- How rendering octets fails.  Reading fails in Latin-1 never, in ASCII at the first octet of 128
or more, and in UTF-8 if and only if the octets are no UTF-8.  Writing fails if and only if the value of a token that is replaced has a code
point that the scheme refuses, and then at the first run of such code points in the rendered
text.  So in UTF-8 it does not fail for a table whose values hold no surrogates. -/
theorem renderPoints_fails (delimited : Bool) (table : List (List Point × List Point))
    (octets : List UInt8) (h : (table.map (·.1)).Nodup) :
    (∀ e, renderPoints .latin1 delimited table octets ≠ .error (.decode e)) ∧
    ((∃ e, renderPoints .ascii delimited table octets = .error (.decode e)) ↔
      ∃ b ∈ octets, 128 ≤ b.toNat) ∧
    (∀ e, renderPoints .ascii delimited table octets = .error (.decode e) ↔
      ∃ before b after, octets = before ++ b :: after ∧ (∀ a ∈ before, a.toNat < 128) ∧
        128 ≤ b.toNat ∧ e = ⟨.ascii, before.length, 1, b, .outOfRange 128⟩) ∧
    ((∃ e, renderPoints .utf8 delimited table octets = .error (.decode e)) ↔
      ¬ octets.toByteArray.IsValidUTF8) ∧
    (∀ scheme text, Scheme.decode scheme octets = .ok text →
      ((∃ e, renderPoints scheme delimited table octets = .error (.encode e)) ↔
        ∃ r ∈ pointReplacements delimited table,
          Replaced (words (pointReplacements delimited table)) (text.map .char) r.word ∧
            ∃ p ∈ r.value, scheme.Refuses p) ∧
      ∀ e, renderPoints scheme delimited table octets = .error (.encode e) ↔
        ∃ before p rest after, FirstRun scheme.Refuses
            (replace (pointReplacements delimited table) (text.map .char)) before p rest after ∧
          e = ⟨scheme, before.length, rest.length + 1, p⟩) ∧
    ((∀ v ∈ table, ∀ p ∈ v.2, ¬ p.IsSurrogate) →
      ∀ e, renderPoints .utf8 delimited table octets ≠ .error (.encode e)) := by
  have hascii (e : DecodeError) : renderPoints .ascii delimited table octets = .error (.decode e) ↔
      SingleOctet.decodeFrom .ascii 128 0 octets = .error e :=
    renderPoints_decode_iff
  have hutf8 (e : DecodeError) : renderPoints .utf8 delimited table octets = .error (.decode e) ↔
      Utf8.decode octets = .error e :=
    renderPoints_decode_iff
  refine ⟨fun e he => ?_, ?_, fun e => ?_, ?_, fun scheme text hdecode =>
    ⟨renderPoints_refused_iff h hdecode, fun e => ?_⟩, fun hvalues e he => ?_⟩
  · rw [renderPoints_decode_iff, Scheme.decode_latin1] at he
    cases he
  · simp only [hascii]
    exact SingleOctet.decodeFrom_fails_iff
  · rw [hascii, SingleOctet.decodeFrom_eq_error_iff]
    simp only [Nat.zero_add]
  · simp only [hutf8, Utf8.isValidUTF8_iff, ← Utf8.decode_eq_ok_iff]
    cases Utf8.decode octets <;> simp
  · rw [renderPoints_encode_iff hdecode, Scheme.encodeFrom_eq_error_iff]
    simp only [Nat.zero_add]
  · cases hdecode : Scheme.decode .utf8 octets with
    | error e' =>
      rw [renderPoints, hdecode] at he
      cases he
    | ok text =>
      obtain ⟨r, hr, -, p, hp, hsurrogate⟩ := (renderPoints_refused_iff h hdecode).1 ⟨e, he⟩
      obtain ⟨v, hv, rfl⟩ := List.mem_map.1 hr
      exact hvalues v hv p hp hsurrogate

/-- A table of which two values make up one run, and the third is not used. -/
def euroTable : List (List Point × List Point) :=
  [(points "A", points "a€"), (points "B", points "€b"), (points "C", points "€")]

/-- Latin-1 has no euro sign.  The run is that of the two values side by side. -/
theorem renderPoints_fails_euro :
    (euroTable.map (·.1)).Nodup ∧ Scheme.decode .latin1 [0xE9, 0x23, 0x41, 0x23, 0x23, 0x42, 0x23] =
        .ok "é#A##B#".toList ∧
      renderPoints .latin1 true euroTable [0xE9, 0x23, 0x41, 0x23, 0x23, 0x42, 0x23] =
        .error (.encode ⟨.latin1, 2, 2, .char '€'⟩) := by
  have hnames : (euroTable.map (·.1)).Nodup := by decide
  have hdecode : Scheme.decode .latin1 [0xE9, 0x23, 0x41, 0x23, 0x23, 0x42, 0x23] =
      .ok "é#A##B#".toList := by
    rw [Scheme.decode_latin1]
    decide +kernel
  obtain ⟨-, -, -, -, hfails, -⟩ := renderPoints_fails true euroTable
    [0xE9, 0x23, 0x41, 0x23, 0x23, 0x42, 0x23] hnames
  have hrun : FirstRun (Scheme.Refuses .latin1)
      (replace (pointReplacements true euroTable) ("é#A##B#".toList.map .char))
      (points "éa") (.char '€') (points "€") (points "b") :=
    ⟨by decide +kernel, by decide, by decide, by decide, by decide⟩
  exact ⟨hnames, hdecode, ((hfails .latin1 _ hdecode).2 _).2 ⟨_, _, _, _, hrun, rfl⟩⟩

/-- A table whose value is a surrogate. -/
def surrogateTable : List (List Point × List Point) :=
  [(points "A", [.surrogate ⟨0xD800, by decide, by decide⟩])]

/-- In UTF-8 reading can fail, at an octet that starts no character, and so can writing, at a
surrogate. -/
theorem renderPoints_utf8_fails :
    renderPoints .utf8 true [(points "A", points "x")] [0xFF] =
      .error (.decode ⟨.utf8, 0, 1, 0xFF, .badStart⟩) ∧
    (surrogateTable.map (·.1)).Nodup ∧
    renderPoints .utf8 true surrogateTable [0x23, 0x41, 0x23] =
      .error (.encode ⟨.utf8, 0, 1, .surrogate ⟨0xD800, by decide, by decide⟩⟩) ∧
    ¬ ∀ (delimited : Bool) (table : List (List Point × List Point)) (octets : List UInt8),
      (table.map (·.1)).Nodup →
        ∀ e, renderPoints .utf8 delimited table octets ≠ .error (.encode e) := by
  have hfails : renderPoints .utf8 true surrogateTable [0x23, 0x41, 0x23] =
      .error (.encode ⟨.utf8, 0, 1, .surrogate ⟨0xD800, by decide, by decide⟩⟩) := by
    rfl
  have hnames : (surrogateTable.map (·.1)).Nodup := by decide
  exact ⟨rfl, hnames, hfails, fun h => h true surrogateTable [0x23, 0x41, 0x23] hnames _ hfails⟩

end ModBuild.Template
