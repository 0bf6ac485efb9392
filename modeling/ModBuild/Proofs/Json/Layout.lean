import ModBuild.Proofs.Json.Grammar
import ModBuild.Proofs.Text.Line
import ModBuild.Proofs.Yaml.Plain
import ModBuild.Yaml.Token.Basic
import Mathlib.Data.List.TakeWhile

/-!
# JSON texts as YAML sees them

A lexeme of JSON is one token of YAML, and the name of a member is three.  A name *fits* if its
colon is on its line and within 1024 characters.  Otherwise YAML does not see that it was a key.

Inside a string YAML reads a character as JSON does, with two exceptions.  The two halves of a
pair of surrogates are read one by one, and U+FFFD stands for either of them.  And there are characters that JSON does not count as
line breaks and YAML does: they are folded with the spaces around them, and the mark of a
document may not stand behind one.

A character is *readable* if it may stand in a YAML text at all.
-/

namespace ModBuild.Json

open Yaml (Token)

/-! ## Spelling -/

/-- Whether a character may stand in a YAML text as it is spelled. -/
def Glyph.isReadable : Glyph → Bool
  | plain c _ => Yaml.isAllowed c
  | _ => true

/-- The characters of a scalar as they are spelled, if it is a string. -/
def Scalar.glyphs : Scalar → List Glyph
  | string gs => gs
  | _ => []

/-- The characters of the string or name that a lexeme is, if it is one. -/
def Lexeme.glyphs : Lexeme → List Glyph
  | scalar s => s.glyphs
  | name gs _ => gs
  | _ => []

/-- Whether all characters of a lexeme are readable. -/
def Lexeme.isReadable (l : Lexeme) : Bool :=
  l.glyphs.all Glyph.isReadable

/-- Whether all characters of a text are readable. -/
def Text.isReadable (t : Text) : Bool :=
  t.pieces.all (·.lexeme.isReadable)

/-- Whether the colon behind a name is on its line and within 1024 characters. -/
def fits (gs : List Glyph) (gap : Gap) : Bool :=
  (quoted gs ++ gap.chars).all (!Yaml.isBreak ·) && (quoted gs ++ gap.chars).length ≤ 1024

/-- Whether a lexeme is no name that does not fit. -/
def Lexeme.fits : Lexeme → Bool
  | name gs gap => Json.fits gs gap
  | _ => true

/-- Whether all names of a text fit. -/
def Text.fits (t : Text) : Bool :=
  t.pieces.all (·.lexeme.fits)

/-! ## Strings -/

/-- The blank that a character is, if it stands for itself: a space, or a line break. -/
def Glyph.blank? : Glyph → Option Char
  | plain c _ => if Yaml.isBlank c then some c else none
  | _ => none

/-- The characters that YAML reads for one that is no blank. -/
def Glyph.read : Glyph → List Char
  | pair _ _ _ => ['\uFFFD', '\uFFFD']
  | g => [g.char]

/-- What a line break is read as. -/
def readBreak (c : Char) : Char :=
  if c == '\u2028' || c == '\u2029' then c else '\n'

/-- What blanks are read as.  Spaces around line breaks are dropped, and the first line break is
too, unless it separates lines or paragraphs.  One that is alone becomes a space then. -/
def fold (w : List Char) : List Char :=
  match (w.filter Yaml.isBreak).map readBreak with
  | [] => w
  | b :: bs => if b ≠ '\n' then b :: bs else if bs = [] then [' '] else bs

example : fold [' ', '\u0085', ' '] = [' '] := by decide

example : fold [' ', '\u0085', '\u0085', ' '] = ['\n'] := by decide

theorem fold_eq_self {w : List Char} (hw : ∀ c ∈ w, Yaml.isBreak c = false) : fold w = w := by
  have hfilter : w.filter Yaml.isBreak = [] :=
    List.filter_eq_nil_iff.2 fun c hc => by simp [hw c hc]
  rw [fold, hfilter]
  rfl

/-- What is read from some blanks and the characters behind them. -/
def readFrom (w : List Char) : List Glyph → List Char
  | [] => fold w
  | g :: gs =>
    match g.blank? with
    | some c => readFrom (w ++ [c]) gs
    | none => fold w ++ (g.read ++ readFrom [] gs)

/-- The text of a string for YAML. -/
def readString (gs : List Glyph) : String :=
  .ofList (readFrom [] gs)

/-- Whether a line ends behind some blanks. -/
def endsLine (w : List Char) : Bool :=
  w.getLast?.any Yaml.isBreak

/-- Whether the mark of a document starts a line in some blanks and the characters behind
them. -/
def marksFrom (w : List Char) : List Glyph → Bool
  | [] => false
  | g :: gs =>
    match g.blank? with
    | some c => marksFrom (w ++ [c]) gs
    | none =>
      (endsLine w && Yaml.atAnyMarker ((g :: gs).flatMap Glyph.chars ++ ['"'])) || marksFrom [] gs

/-! ## Halting -/

/-- Whether a lexeme holds a tab outside of a string. -/
def Lexeme.hasTab : Lexeme → Bool
  | name _ gap => gap.chars.contains '\t'
  | _ => false

/-- Whether no token can be read at a lexeme or behind it: the mark of a document starts a line in
it, or it holds a tab outside of a string. -/
def Lexeme.halts (l : Lexeme) : Bool :=
  marksFrom [] l.glyphs || l.hasTab

/-- Whether no token can be read at a piece or behind it. -/
def Piece.halts (p : Piece) : Bool :=
  p.gap.chars.contains '\t' || p.lexeme.halts

/-- Whether a text cannot be read to its end. -/
def Text.halts (t : Text) : Bool :=
  t.pieces.any Piece.halts || t.final.chars.contains '\t'

/-! ## Tokens -/

/-- The token that a scalar is. -/
def Scalar.token : Scalar → Token
  | string gs => .scalar (readString gs) false
  | s => .scalar (.ofList s.chars) true

/-- The tokens that a lexeme is. -/
def Lexeme.tokens : Lexeme → List Token
  | openArray => [.flowSequenceStart]
  | closeArray => [.flowSequenceEnd]
  | openObject => [.flowMappingStart]
  | closeObject => [.flowMappingEnd]
  | comma => [.flowEntry]
  | scalar s => [s.token]
  | name gs gap =>
    if Json.fits gs gap then [.key, .scalar (readString gs) false, .value]
    else [.scalar (readString gs) false, .value]

/-- The tokens of a piece. -/
def Piece.tokens (p : Piece) : List Token :=
  p.lexeme.tokens

/-- The tokens of a text. -/
def Text.tokens (t : Text) : List Token :=
  t.pieces.flatMap Piece.tokens ++ [.streamEnd]

/-! ## White space -/

/-- The characters of white space, with line feeds for line breaks. -/
def Gap.unified (g : Gap) : List Char :=
  Text.unifyBreaks g.chars

/-- The characters of a lexeme, with line feeds for line breaks. -/
def Lexeme.unified : Lexeme → List Char
  | name gs gap => quoted gs ++ (gap.unified ++ [':'])
  | l => l.chars

/-- The characters of a piece, with line feeds for line breaks. -/
def Piece.unified (p : Piece) : List Char :=
  p.gap.unified ++ p.lexeme.unified

/-- The characters of a text, with line feeds for line breaks. -/
def Text.unified (t : Text) : List Char :=
  t.pieces.flatMap Piece.unified ++ t.final.unified

theorem Gap.mem_unified {g : Gap} {c : Char} (h : c ∈ g.unified) : Yaml.isLayout c ∨ c = '\t' := by
  rcases Text.mem_unifyBreaks h with rfl | ⟨hc, hreturn⟩
  · exact Or.inl rfl
  · have hspace := List.all_eq_true.1 g.spaces c hc
    simp only [isSpace, Bool.or_eq_true, beq_iff_eq] at hspace
    rcases hspace with ((rfl | rfl) | rfl) | rfl
    · exact Or.inl rfl
    · exact Or.inr rfl
    · exact Or.inl rfl
    · exact absurd rfl hreturn

theorem Gap.isLayout_unified {g : Gap} (h : g.chars.contains '\t' = false) :
    ∀ c ∈ g.unified, Yaml.isLayout c := by
  intro c hc
  rcases g.mem_unified hc with hlayout | rfl
  · exact hlayout
  · rcases Text.mem_unifyBreaks hc with hne | ⟨hmem, -⟩
    · exact absurd hne (by decide)
    · rw [List.contains_iff_mem.2 hmem] at h
      cases h

/-- White space with a tab is read up to the first one. -/
theorem Gap.exists_tab {g : Gap} (h : g.chars.contains '\t' = true) :
    ∃ w w', g.unified = w ++ '\t' :: w' ∧ ∀ c ∈ w, Yaml.isLayout c := by
  have hmem : '\t' ∈ g.unified :=
    Text.mem_unifyBreaks_of_mem (List.contains_iff_mem.1 h) (by decide)
  have hsplit := List.takeWhile_append_dropWhile (p := Yaml.isLayout) (l := g.unified)
  have hlayout : ∀ c ∈ g.unified.takeWhile Yaml.isLayout, Yaml.isLayout c :=
    fun c hc => List.mem_takeWhile_imp hc
  cases hdrop : g.unified.dropWhile Yaml.isLayout with
  | nil =>
    rw [hdrop, List.append_nil] at hsplit
    exact absurd (hlayout '\t' (hsplit.symm ▸ hmem)) (by decide)
  | cons d ds =>
    have hd : Yaml.isLayout d = false := by
      have hhead := List.head?_dropWhile_not Yaml.isLayout g.unified
      rwa [hdrop] at hhead
    rw [hdrop] at hsplit
    have hdmem : d ∈ g.unified := hsplit ▸ by simp
    obtain rfl : d = '\t' := by
      rcases g.mem_unified hdmem with hd' | hd'
      · rw [hd] at hd'
        cases hd'
      · exact hd'
    exact ⟨_, ds, hsplit.symm, hlayout⟩

/-- What fits, fits with line feeds for line breaks. -/
theorem fits_iff {gs : List Glyph} {gap : Gap} :
    fits gs gap = true ↔ (∀ c ∈ quoted gs ++ gap.unified, Yaml.isBreak c = false) ∧
      (quoted gs ++ gap.unified).length ≤ 1024 := by
  have hsame : '\r' ∉ gap.chars → gap.unified = gap.chars := Text.unifyBreaks_eq_self
  simp only [fits, Bool.and_eq_true, decide_eq_true_eq, List.all_eq_true, Bool.not_eq_true']
  constructor
  · rintro ⟨hbreak, hlength⟩
    have hreturn : '\r' ∉ gap.chars := fun hmem =>
      absurd (hbreak _ (List.mem_append_right _ hmem)) (by decide)
    rw [hsame hreturn]
    exact ⟨hbreak, hlength⟩
  · rintro ⟨hbreak, hlength⟩
    have hreturn : '\r' ∉ gap.chars := fun hmem =>
      absurd (hbreak _ (List.mem_append_right _ (Text.lineFeed_mem_unifyBreaks (Or.inr hmem))))
        (by decide)
    rw [hsame hreturn] at hbreak hlength
    exact ⟨hbreak, hlength⟩

/-! ## Words -/

/-- A character of a number or of a word of JSON. -/
def isPart (c : Char) : Bool :=
  c.isAlphanum || c == '-' || c == '+' || c == '.'

theorem isInner_of_isPart {c : Char} (h : isPart c = true) : Yaml.Plain.isInner c = true := by
  simp only [isPart, Bool.or_eq_true, beq_iff_eq] at h
  rcases h with ((h | rfl) | rfl) | rfl
  · exact Yaml.Plain.isInner_of_isAlphanum h
  all_goals decide

theorem isAlphanum_iff {c : Char} : c.isAlphanum = true ↔
    (65 ≤ c.toNat ∧ c.toNat ≤ 90 ∨ 97 ≤ c.toNat ∧ c.toNat ≤ 122) ∨
      48 ≤ c.toNat ∧ c.toNat ≤ 57 := by
  change (decide ('A'.val ≤ c.val ∧ c.val ≤ 'Z'.val) ||
    (decide ('a'.val ≤ c.val) && decide (c.val ≤ 'z'.val)) ||
    (decide ('0'.val ≤ c.val) && decide (c.val ≤ '9'.val))) = true ↔ _
  simp only [Bool.or_eq_true, Bool.and_eq_true, decide_eq_true_eq]
  rfl

theorem isAllowed_of_ascii {c : Char} (h : 0x20 ≤ c.toNat ∧ c.toNat < 0x7F) :
    Yaml.isAllowed c = true := by
  simp only [Yaml.isAllowed, Bool.or_eq_true, Bool.and_eq_true, decide_eq_true_eq]
  omega

theorem isAllowed_of_isPart {c : Char} (h : isPart c = true) : Yaml.isAllowed c = true := by
  simp only [isPart, Bool.or_eq_true, beq_iff_eq] at h
  rcases h with ((h | rfl) | rfl) | rfl
  · rw [isAlphanum_iff] at h
    exact isAllowed_of_ascii (by omega)
  all_goals decide

theorem Digits.isPart (d : Digits) : ∀ c ∈ d.chars, Json.isPart c := by
  intro c hc
  simp [Json.isPart, Char.isAlphanum, List.all_eq_true.1 d.isDigit c hc]

theorem Exponent.isPart (e : Exponent) : ∀ c ∈ e.chars, Json.isPart c := by
  intro c hc
  simp only [Exponent.chars, List.mem_cons, List.mem_append] at hc
  rcases hc with rfl | hc | hc
  · split <;> decide
  · cases hsign : e.sign <;> rw [hsign] at hc <;> simp only [Sign.chars, List.mem_singleton] at hc
    · cases hc
    · exact hc ▸ by decide
    · exact hc ▸ by decide
  · exact e.digits.isPart c hc

theorem Number.isPart_unsigned (n : Number) : ∀ c ∈ n.unsigned, Json.isPart c := by
  intro c hc
  rw [unsigned, List.mem_append, List.mem_append] at hc
  rcases hc with (hc | hc) | hc
  · exact n.whole.isPart c hc
  · rw [pointChars] at hc
    cases hplaces : n.places with
    | none => simp [hplaces] at hc
    | some d =>
      simp only [hplaces, Option.map_some, Option.getD_some, List.mem_cons] at hc
      rcases hc with rfl | hc
      · decide
      · exact d.isPart c hc
  · rw [exponentChars] at hc
    cases hexponent : n.exponent with
    | none => simp [hexponent] at hc
    | some e =>
      simp only [hexponent, Option.map_some, Option.getD_some] at hc
      exact e.isPart c hc

theorem Number.isPart (n : Number) : ∀ c ∈ n.chars, Json.isPart c := by
  intro c hc
  rw [chars] at hc
  split at hc
  · rcases List.mem_cons.1 hc with rfl | hc
    · decide
    · exact n.isPart_unsigned c hc
  · exact n.isPart_unsigned c hc

/-! ## Characters of strings -/

theorem Hex.isAlphanum (h : Hex) : ∀ c ∈ h.digits, c.isAlphanum = true := by
  intro c hc
  have hhex := List.all_eq_true.1 h.isHex c hc
  simp only [Yaml.isHex, Char.isDigit, Bool.or_eq_true, Bool.and_eq_true, decide_eq_true_eq] at hhex
  change ((48 ≤ c.toNat ∧ c.toNat ≤ 57) ∨ (97 ≤ c.toNat ∧ c.toNat ≤ 102)) ∨
    65 ≤ c.toNat ∧ c.toNat ≤ 70 at hhex
  rw [isAlphanum_iff]
  omega

/-- A character is spelled as itself, or in ASCII. -/
theorem Glyph.cases_chars (g : Glyph) :
    (∃ c h, g = .plain c h) ∨ ∀ c ∈ g.chars, 0x20 ≤ c.toNat ∧ c.toNat < 0x7F := by
  have hhex : ∀ (n : Hex) (c : Char), c ∈ '\\' :: 'u' :: n.digits →
      0x20 ≤ c.toNat ∧ c.toNat < 0x7F := by
    intro n c hc
    rw [List.mem_cons, List.mem_cons] at hc
    rcases hc with rfl | rfl | hc
    · decide
    · decide
    · have halpha := n.isAlphanum c hc
      rw [isAlphanum_iff] at halpha
      omega
  cases g with
  | plain c h => exact Or.inl ⟨c, h, rfl⟩
  | short letter d hletter =>
    refine Or.inr fun c hc => ?_
    simp only [chars, List.mem_cons, List.not_mem_nil, or_false] at hc
    rcases hc with rfl | rfl
    · decide
    · unfold short? at hletter
      split at hletter <;> first | decide | cases hletter
  | number n hn => exact Or.inr (hhex n)
  | pair high low hpair =>
    refine Or.inr fun c hc => ?_
    rcases List.mem_append.1 hc with hc | hc
    · exact hhex high c hc
    · exact hhex low c hc

/-- The characters of a string are no control characters. -/
theorem le_of_mem_quoted {gs : List Glyph} : ∀ c ∈ quoted gs, 0x20 ≤ c.toNat := by
  intro c hc
  simp only [quoted, List.mem_cons, List.mem_append, List.mem_flatMap, List.not_mem_nil,
    or_false] at hc
  rcases hc with rfl | ⟨g, -, hc⟩ | rfl
  · decide
  · rcases g.cases_chars with ⟨d, hd, rfl⟩ | hascii
    · obtain rfl := List.mem_singleton.1 hc
      simp only [isUnescaped, Bool.and_eq_true, decide_eq_true_eq] at hd
      exact hd.1.1
    · exact (hascii c hc).1
  · decide

theorem not_mem_quoted {gs : List Glyph} {c : Char} (hc : c.toNat < 0x20) : c ∉ quoted gs :=
  fun hmem => absurd (le_of_mem_quoted c hmem) (Nat.not_le.2 hc)

theorem Glyph.all_isAllowed (g : Glyph) : g.chars.all Yaml.isAllowed = g.isReadable := by
  rcases g.cases_chars with ⟨c, h, rfl⟩ | hascii
  · exact Bool.and_true _
  · have hall : g.chars.all Yaml.isAllowed = true :=
      List.all_eq_true.2 fun c hc => isAllowed_of_ascii (hascii c hc)
    cases g with
    | plain c h => exact Bool.and_true _
    | _ => exact hall

theorem all_isAllowed_quoted (gs : List Glyph) :
    (quoted gs).all Yaml.isAllowed = gs.all Glyph.isReadable := by
  have hmark : Yaml.isAllowed '"' = true := by decide
  simp only [quoted, List.all_cons, List.all_append, List.all_nil, hmark, Bool.true_and,
    Bool.and_true, List.all_flatMap, Glyph.all_isAllowed]

theorem return_not_mem {gs : List Glyph} {gap : Gap} : '\r' ∉ quoted gs ++ gap.unified := by
  rw [List.mem_append, not_or]
  refine ⟨not_mem_quoted (by decide), fun hmem => ?_⟩
  rcases Text.mem_unifyBreaks hmem with h | ⟨-, h⟩
  · exact absurd h (by decide)
  · exact h rfl

/-! ## Scalars -/

/-- A word starts with a letter or digit, or with a minus and a digit. -/
def StartsWord (w : List Char) : Prop :=
  ∃ d ds, w = d :: ds ∧
    (d.isAlphanum = true ∨ d = '-' ∧ ∃ e es, ds = e :: es ∧ e.isDigit = true)

theorem Number.exists_unsigned (n : Number) :
    ∃ d ds, n.unsigned = d :: ds ∧ d.isDigit = true := by
  obtain ⟨d, ds, hwhole⟩ := List.exists_cons_of_ne_nil n.whole.nonempty
  have hd : d.isDigit = true :=
    List.all_eq_true.1 n.whole.isDigit d (hwhole ▸ List.mem_cons_self)
  exact ⟨d, ds ++ n.pointChars ++ n.exponentChars, by simp [unsigned, hwhole], hd⟩

theorem Number.startsWord (n : Number) : StartsWord n.chars := by
  obtain ⟨d, ds, hunsigned, hd⟩ := n.exists_unsigned
  rw [chars, hunsigned]
  split
  · exact ⟨'-', d :: ds, rfl, Or.inr ⟨rfl, d, ds, rfl, hd⟩⟩
  · exact ⟨d, ds, rfl, Or.inl (by rw [Char.isAlphanum, hd, Bool.or_true])⟩

/-- A scalar is a string between its marks, or a word. -/
theorem Scalar.cases_token (s : Scalar) :
    (∃ gs, s = .string gs) ∨
      s.token = .scalar (.ofList s.chars) true ∧ StartsWord s.chars ∧
        ∀ c ∈ s.chars, isPart c := by
  cases s with
  | string gs => exact Or.inl ⟨gs, rfl⟩
  | null =>
    have hpart : Scalar.null.chars.all isPart = true := by decide +kernel
    exact Or.inr ⟨rfl, ⟨'n', _, rfl, Or.inl (by decide)⟩, List.all_eq_true.1 hpart⟩
  | bool b =>
    have hpart : (Scalar.bool b).chars.all isPart = true := by
      cases b <;> decide +kernel
    refine Or.inr ⟨by cases b <;> rfl, ?_, List.all_eq_true.1 hpart⟩
    cases b
    · exact ⟨'f', _, rfl, Or.inl (by decide)⟩
    · exact ⟨'t', _, rfl, Or.inl (by decide)⟩
  | number n => exact Or.inr ⟨rfl, n.startsWord, n.isPart⟩

theorem Lexeme.length_unified_pos (l : Lexeme) : 0 < l.unified.length := by
  cases l with
  | scalar s =>
    rcases s.cases_token with ⟨gs, rfl⟩ | ⟨-, ⟨d, ds, hchars, -⟩, -⟩
    · exact Nat.succ_pos _
    · change 0 < s.chars.length
      rw [hchars]
      exact Nat.succ_pos _
  | _ => exact Nat.succ_pos _

theorem Scalar.ne_break {s : Scalar} : ∀ c ∈ s.chars, c ≠ '\n' ∧ c ≠ '\r' := by
  intro c hc
  rcases s.cases_token with ⟨gs, rfl⟩ | ⟨-, -, hpart⟩
  · have hle := le_of_mem_quoted c hc
    constructor <;> (rintro rfl; exact absurd hle (by decide))
  · have hc := hpart c hc
    constructor <;> (rintro rfl; exact absurd hc (by decide))

/-! ## Texts -/

/-- A lexeme starts with no line break. -/
theorem Lexeme.exists_cons (l : Lexeme) : ∃ c cs, l.chars = c :: cs ∧ c ≠ '\n' := by
  cases l with
  | scalar s =>
    obtain ⟨c, cs, hchars⟩ := List.exists_cons_of_length_pos (Lexeme.scalar s).length_unified_pos
    have hmem : c ∈ s.chars := by
      change c ∈ (Lexeme.scalar s).unified
      exact hchars ▸ List.mem_cons_self
    exact ⟨c, cs, hchars, (Scalar.ne_break c hmem).1⟩
  | name gs gap => exact ⟨'"', _, rfl, by decide⟩
  | _ => exact ⟨_, [], rfl, by decide⟩

theorem Lexeme.unifyBreaks_append (l : Lexeme) (cs : List Char) :
    Text.unifyBreaks (l.chars ++ cs) = l.unified ++ Text.unifyBreaks cs := by
  cases l with
  | scalar s => exact Text.unifyBreaks_append_left fun hr => (Scalar.ne_break _ hr).2 rfl
  | name gs gap =>
    rw [chars, List.append_assoc, List.append_assoc,
      Text.unifyBreaks_append_left (not_mem_quoted (by decide)),
      Text.unifyBreaks_append (by simp), List.singleton_append,
      Text.unifyBreaks_cons (by decide)]
    simp [unified, Gap.unified]
  | _ => exact Text.unifyBreaks_cons (by decide)

theorem Piece.unifyBreaks_append (p : Piece) (cs : List Char) :
    Text.unifyBreaks (p.chars ++ cs) = p.unified ++ Text.unifyBreaks cs := by
  obtain ⟨c, ds, hchars, hc⟩ := p.lexeme.exists_cons
  have hhead : (p.lexeme.chars ++ cs).head? ≠ some '\n' := by
    rw [hchars]
    exact fun he => hc (Option.some.inj he)
  rw [Piece.chars, List.append_assoc, Text.unifyBreaks_append hhead,
    Lexeme.unifyBreaks_append, Piece.unified, List.append_assoc, Gap.unified]

theorem Text.unifyBreaks_chars (t : Text) :
    ModBuild.Text.unifyBreaks t.chars = t.unified := by
  obtain ⟨ps, final⟩ := t
  change ModBuild.Text.unifyBreaks (ps.flatMap Piece.chars ++ final.chars) =
    ps.flatMap Piece.unified ++ final.unified
  induction ps with
  | nil => rfl
  | cons p ps ih =>
    rw [List.flatMap_cons, List.flatMap_cons, List.append_assoc, Piece.unifyBreaks_append, ih,
      List.append_assoc]

theorem Gap.all_isAllowed (g : Gap) : g.unified.all Yaml.isAllowed = true := by
  rw [List.all_eq_true]
  intro c hc
  rcases g.mem_unified hc with hlayout | rfl
  · simp only [Yaml.isLayout, Bool.or_eq_true, beq_iff_eq] at hlayout
    rcases hlayout with rfl | rfl <;> decide
  · decide

theorem Lexeme.all_isAllowed (l : Lexeme) : l.unified.all Yaml.isAllowed = l.isReadable := by
  cases l with
  | scalar s =>
    rcases s.cases_token with ⟨gs, rfl⟩ | ⟨htoken, -, hpart⟩
    · exact all_isAllowed_quoted gs
    · have hall : s.chars.all Yaml.isAllowed = true :=
        List.all_eq_true.2 fun c hc => isAllowed_of_isPart (hpart c hc)
      cases s with
      | string gs => exact absurd (Token.scalar.inj htoken).2 Bool.false_ne_true
      | _ => exact hall
  | name gs gap =>
    rw [unified, List.all_append, List.all_append, gap.all_isAllowed, all_isAllowed_quoted]
    exact Bool.and_true _
  | _ => decide

theorem Text.all_isAllowed (t : Text) : t.unified.all Yaml.isAllowed = t.isReadable := by
  simp only [unified, Piece.unified, List.all_append, List.all_flatMap, Gap.all_isAllowed,
    Lexeme.all_isAllowed, Bool.true_and, Bool.and_true, isReadable]

end ModBuild.Json
