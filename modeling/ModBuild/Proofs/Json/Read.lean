import ModBuild.Proofs.Yaml.Number
import ModBuild.Proofs.Yaml.Parse
import ModBuild.Proofs.Yaml.Scan
import ModBuild.Proofs.Yaml.Value
import ModBuild.Yaml.Read

/-!
# JSON texts read as YAML

A JSON text is YAML if its characters are readable, reading does not halt in it, and its names
fit.  Then its value is that of the same structure, with strings and numbers as YAML reads them.
Otherwise it is refused.

The value is the same as in JSON if the text is *plain*: it spells no character as a pair of
surrogates, no character in a string ends a line in YAML, and no number with an exponent lacks
the point or the sign of the exponent.
-/

namespace ModBuild.Json

open Document (Value)

/-! ## Two ways to read a text -/

/-- Two readings agree on a lexeme. -/
def Lexeme.Alike (ρ σ : Reading) : Lexeme → Prop
  | scalar s => ρ.scalar s = σ.scalar s
  | name gs _ => ρ.string gs = σ.string gs
  | _ => True

/-- Where two readings agree on the lexemes, they agree on what the lexemes stand for. -/
theorem Encodes.congr {ρ σ : Reading} {ps : List Piece} {m : Meaning} (h : Encodes ρ ps m)
    (halike : ∀ p ∈ ps, p.lexeme.Alike ρ σ) : Encodes σ ps m := by
  induction h with
  | scalar g s =>
    have hs : ρ.scalar s = σ.scalar s := halike _ (List.mem_singleton_self _)
    rw [hs]
    exact .scalar g s
  | emptyArray g g' => exact .emptyArray g g'
  | endArray g => exact .endArray g
  | emptyObject g g' => exact .emptyObject g g'
  | endObject g => exact .endObject g
  | array g _ _ ih ih' =>
    simp only [List.forall_mem_cons, List.forall_mem_append] at halike
    exact .array g (ih halike.2.1) (ih' halike.2.2)
  | item g _ _ ih ih' =>
    simp only [List.forall_mem_cons, List.forall_mem_append] at halike
    exact .item g (ih halike.2.1) (ih' halike.2.2)
  | object g g' gs k _ _ ih ih' =>
    simp only [List.forall_mem_cons, List.forall_mem_append] at halike
    have hname : ρ.string gs = σ.string gs := halike.2.1
    rw [hname]
    exact .object g g' gs k (ih halike.2.2.1) (ih' halike.2.2.2)
  | member g g' gs k _ _ ih ih' =>
    simp only [List.forall_mem_cons, List.forall_mem_append] at halike
    have hname : ρ.string gs = σ.string gs := halike.2.1
    rw [hname]
    exact .member g g' gs k (ih halike.2.2.1) (ih' halike.2.2.2)

/-- Something of the same sort as another. -/
inductive Meaning.SameSort : Meaning → Meaning → Prop
  | value (v w : Value) : SameSort (.value v) (.value w)
  | items (vs ws : List Value) : SameSort (.items vs) (.items ws)
  | members (es fs : List (String × Value)) : SameSort (.members es) (.members fs)

/-- What stands for something in one reading stands for something of its sort in any other. -/
theorem Encodes.exists_same {ρ : Reading} {ps : List Piece} {m : Meaning} (h : Encodes ρ ps m)
    (σ : Reading) : ∃ m', Encodes σ ps m' ∧ m.SameSort m' := by
  induction h with
  | scalar g s => exact ⟨_, .scalar g s, .value _ _⟩
  | emptyArray g g' => exact ⟨_, .emptyArray g g', .value _ _⟩
  | endArray g => exact ⟨_, .endArray g, .items _ _⟩
  | emptyObject g g' => exact ⟨_, .emptyObject g g', .value _ _⟩
  | endObject g => exact ⟨_, .endObject g, .members _ _⟩
  | array g _ _ ih ih' =>
    obtain ⟨_, hv, ⟨⟩⟩ := ih
    obtain ⟨_, hvs, ⟨⟩⟩ := ih'
    exact ⟨_, .array g hv hvs, .value _ _⟩
  | item g _ _ ih ih' =>
    obtain ⟨_, hv, ⟨⟩⟩ := ih
    obtain ⟨_, hvs, ⟨⟩⟩ := ih'
    exact ⟨_, .item g hv hvs, .items _ _⟩
  | object g g' gs k _ _ ih ih' =>
    obtain ⟨_, hv, ⟨⟩⟩ := ih
    obtain ⟨_, hes, ⟨⟩⟩ := ih'
    exact ⟨_, .object g g' gs k hv hes, .value _ _⟩
  | member g g' gs k _ _ ih ih' =>
    obtain ⟨_, hv, ⟨⟩⟩ := ih
    obtain ⟨_, hes, ⟨⟩⟩ := ih'
    exact ⟨_, .member g g' gs k hv hes, .members _ _⟩

/-! ## Plain texts -/

/-- Whether YAML reads a character as JSON does, whatever is around it. -/
def Glyph.isPlain : Glyph → Bool
  | pair _ _ _ => false
  | plain c _ => !Yaml.isBreak c
  | _ => true

/-- Whether YAML reads a lexeme as JSON does. -/
def Lexeme.isPlain : Lexeme → Bool
  | scalar (.number n) => n.isPlain
  | l => l.glyphs.all Glyph.isPlain

/-- Whether YAML reads all lexemes of a text as JSON does. -/
def Text.isPlain (t : Text) : Bool :=
  t.pieces.all (·.lexeme.isPlain)

theorem Glyph.read_of_isPlain {g : Glyph} (h : g.isPlain) : g.read = [g.char] := by
  cases g with
  | pair high low hpair => cases h
  | _ => rfl

theorem Glyph.char_of_blank? {g : Glyph} {c : Char} (h : g.isPlain) (hg : g.blank? = some c) :
    g.char = c ∧ Yaml.isBreak c = false := by
  cases g with
  | plain d hd =>
    rw [blank?] at hg
    split at hg
    · obtain rfl := Option.some.inj hg
      exact ⟨rfl, Bool.not_eq_true' _ ▸ h⟩
    · cases hg
  | _ => cases hg

theorem readFrom_of_isPlain {gs : List Glyph} (h : ∀ g ∈ gs, g.isPlain) {w : List Char}
    (hw : ∀ c ∈ w, Yaml.isBreak c = false) : readFrom w gs = w ++ gs.map Glyph.char := by
  induction gs generalizing w with
  | nil => rw [readFrom, fold_eq_self hw, List.map_nil, List.append_nil]
  | cons g gs ih =>
    obtain ⟨hg, hgs⟩ := List.forall_mem_cons.1 h
    rw [readFrom]
    cases hblank : g.blank? with
    | none =>
      simp only [fold_eq_self hw, ih hgs (List.forall_mem_nil _), g.read_of_isPlain hg]
      rfl
    | some c =>
      obtain ⟨hchar, hbreak⟩ := g.char_of_blank? hg hblank
      have hw' : ∀ e ∈ w ++ [c], Yaml.isBreak e = false := by
        intro e he
        rcases List.mem_append.1 he with he | he
        · exact hw e he
        · exact List.mem_singleton.1 he ▸ hbreak
      simp only [ih hgs hw', List.append_assoc, List.map_cons, hchar]
      rfl

theorem string_yaml {gs : List Glyph} (h : gs.all Glyph.isPlain) :
    Reading.own.string gs = Reading.yaml.string gs :=
  congrArg String.ofList
    (readFrom_of_isPlain (List.all_eq_true.1 h) (List.forall_mem_nil _)).symm

theorem Lexeme.alike_yaml {l : Lexeme} (h : l.isPlain) : l.Alike .own .yaml := by
  cases l with
  | scalar s =>
    cases s with
    | null | bool => rfl
    | number n =>
      have hn : n.isPlain = true := h
      change n.key = Reading.yaml.number n
      rw [Reading.number_yaml, if_pos hn]
    | string gs => exact congrArg Document.Key.text (string_yaml h)
  | name gs gap => exact string_yaml h
  | _ => trivial

/-- YAML reads a plain text as JSON does. -/
theorem Text.Encodes.yaml {t : Text} {v : Value} (hv : t.Encodes v) (h : t.isPlain) :
    Json.Encodes .yaml t.pieces (.value v) :=
  Json.Encodes.congr hv fun p hp => Lexeme.alike_yaml (List.all_eq_true.1 h p hp)

/-- Whether a text is YAML. -/
def Text.isYaml (t : Text) : Bool :=
  t.isReadable && !t.halts && t.fits

end ModBuild.Json

namespace ModBuild.Yaml

theorem Parser.readAs_yaml : ReadAs .yaml where
  string _ := rfl
  scalar s := by
    cases s with
    | null => exact ⟨"null", true, rfl, by decide +kernel⟩
    | bool b => cases b <;> exact ⟨_, true, rfl, by decide +kernel⟩
    | number n => exact ⟨_, true, rfl, n.readScalar⟩
    | string gs => exact ⟨_, false, rfl, rfl⟩

/-- A JSON text is read as what it stands for if it is YAML, and is refused otherwise. -/
theorem read_json {t : Json.Text} {v : Document.Value}
    (hv : Json.Encodes .yaml t.pieces (.value v)) :
    read (Text.unifyBreaks t.chars) = if t.isYaml then .ok v else .error .notYaml := by
  rw [read, Json.Text.unifyBreaks_chars, Tokens.ofText_json hv, Json.Text.isYaml]
  cases t.isReadable && !t.halts with
  | false => rfl
  | true =>
    change (Graph.ofTokens ⟨t.tokens, none⟩ >>= _) = _
    cases hfits : t.fits with
    | false =>
      rw [Graph.ofTokens_of_not_fits Parser.readAs_yaml hv hfits]
      rfl
    | true =>
      obtain ⟨nodes, fs, hgraph, hnodes⟩ := Graph.ofTokens_of_fits Parser.readAs_yaml hv hfits
      rw [hgraph]
      exact Graph.value_preorder hnodes

end ModBuild.Yaml
