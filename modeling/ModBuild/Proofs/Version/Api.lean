import Mathlib.Data.List.TakeWhile
import ModBuild.Proofs.Text.Digit
import ModBuild.Variables.Build

/-!
# Which versions have an API version

A version *starts* with an API version if it has a numeral of each of the two numbers and a
dot between them (`Starts`).  It is well formed if nothing stands behind the second numeral,
or a dot, a dash or a plus sign does.  Every well-formed version is accepted, and besides
them only a version that ends behind the second numeral with a single line feed
(`apiOf_accepts_iff`).  How the numbers are written is forgotten: the text of an API version
is the canonical one, and it is read as this API version again (`apiOf_canonical`).  A dash
ends what is read, so the text behind it has no part in it (`ofVersion?_dash`).
-/

namespace ModBuild

open Text

namespace ApiVersion

variable {api : ApiVersion} {cs rest : List Char} {version : String}

/-! ## The form of a version -/

/-- A text starts with an API version, and a rest stands behind it. -/
def Starts (api : ApiVersion) (rest cs : List Char) : Prop :=
  ∃ major minor, cs = major ++ '.' :: (minor ++ rest) ∧ Numeral major api.major ∧
    Numeral minor api.minor

/-- What may stand behind the second number. -/
inductive Closes : List Char → Prop
  | nothing : Closes []
  | mark {c : Char} (h : c ∈ ['.', '-', '+']) (behind : List Char) : Closes (c :: behind)

/-- A version that starts with an API version and goes on as it may. -/
def WellFormed (version : String) : Prop :=
  ∃ api rest, Starts api rest version.toList ∧ Closes rest

theorem endsNumber_iff : endsNumber rest = true ↔ Closes rest ∨ rest = ['\n'] := by
  constructor
  · intro h
    unfold endsNumber at h
    split at h
    · exact Or.inl .nothing
    · exact Or.inr rfl
    · next c behind _ =>
      refine Or.inl (.mark ?_ behind)
      simpa [or_assoc] using h
  · rintro (h | rfl)
    · cases h with
      | nothing => rfl
      | @mark c h behind =>
        simp only [List.mem_cons, List.not_mem_nil, or_false] at h
        rcases h with rfl | rfl | rfl <;> rfl
    · rfl

theorem not_isDigit_of_endsNumber (h : endsNumber rest = true) :
    ∀ c ∈ rest.head?, isDigit c = false := by
  intro c hc
  rcases endsNumber_iff.1 h with hcloses | rfl
  · cases hcloses with
    | nothing => cases hc
    | mark hmark behind =>
      cases hc
      simp only [List.mem_cons, List.not_mem_nil, or_false] at hmark
      rcases hmark with rfl | rfl | rfl <;> decide
  · cases hc
    decide

/-! ## What is read -/

/-- The runs of digits are the two numerals. -/
theorem Starts.runs (h : Starts api rest cs) (hrest : ∀ c ∈ rest.head?, isDigit c = false) :
    ∃ behind, cs.dropWhile isDigit = '.' :: behind ∧ behind.dropWhile isDigit = rest ∧
      Numeral (cs.takeWhile isDigit) api.major ∧ Numeral (behind.takeWhile isDigit) api.minor := by
  obtain ⟨major, minor, rfl, hmajor, hminor⟩ := h
  have hdot : ∀ c ∈ ('.' :: (minor ++ rest)).head?, isDigit c = false := by
    intro c hc
    cases hc
    decide
  obtain ⟨htake, hdrop⟩ := takeWhile_isDigit (numeral_iff.1 hmajor).2.1 hdot
  obtain ⟨htake', hdrop'⟩ := takeWhile_isDigit (numeral_iff.1 hminor).2.1 hrest
  refine ⟨minor ++ rest, hdrop, hdrop', ?_, ?_⟩
  · rwa [htake]
  · rwa [htake']

/-- A version has an API version if it starts with it, and what stands behind it does not go
on with the second number. -/
theorem ofVersion?_eq_some_iff :
    ofVersion? version = some api ↔
      ∃ rest, Starts api rest version.toList ∧ (Closes rest ∨ rest = ['\n']) := by
  constructor
  · intro h
    unfold ofVersion? at h
    dsimp only at h
    split at h
    · next behind hbehind =>
      split at h
      · cases h
      · next hif =>
        rw [not_or, not_or, Bool.not_eq_false] at hif
        obtain ⟨hmajor, hminor, hends⟩ := hif
        cases h
        refine ⟨behind.dropWhile isDigit, ⟨version.toList.takeWhile isDigit,
          behind.takeWhile isDigit, ?_, ?_, ?_⟩, endsNumber_iff.1 hends⟩
        · rw [List.takeWhile_append_dropWhile, ← hbehind, List.takeWhile_append_dropWhile]
        · exact numeral_iff.2 ⟨hmajor, fun _ => List.mem_takeWhile_imp, rfl⟩
        · exact numeral_iff.2 ⟨hminor, fun _ => List.mem_takeWhile_imp, rfl⟩
    · cases h
  · rintro ⟨rest, hstarts, hrest⟩
    have hends : endsNumber rest = true := endsNumber_iff.2 hrest
    obtain ⟨behind, hdrop, hdrop', hmajor, hminor⟩ :=
      hstarts.runs (not_isDigit_of_endsNumber hends)
    obtain ⟨hmajor, -, hmajorValue⟩ := numeral_iff.1 hmajor
    obtain ⟨hminor, -, hminorValue⟩ := numeral_iff.1 hminor
    unfold ofVersion?
    simp [hdrop, hdrop', hmajor, hminor, hends, ← hmajorValue, ← hminorValue]

/-! ## What is behind a dash -/

/-- The numerals have no dash in them. -/
theorem dash_not_mem {major minor : List Char} {m n : Nat} (hmajor : Numeral major m)
    (hminor : Numeral minor n) : '-' ∉ major ++ '.' :: minor := by
  intro hmem
  have hdigit : isDigit '-' = true := by
    rcases List.mem_append.1 hmem with hmem | hmem
    · exact (numeral_iff.1 hmajor).2.1 '-' hmem
    · rcases List.mem_cons.1 hmem with hmem | hmem
      · exact absurd hmem (by decide)
      · exact (numeral_iff.1 hminor).2.1 '-' hmem
  exact absurd hdigit (by decide)

theorem Starts.append (h : Starts api rest cs) (ds : List Char) :
    Starts api (rest ++ ds) (cs ++ ds) := by
  obtain ⟨major, minor, rfl, hmajor, hminor⟩ := h
  exact ⟨major, minor, by simp, hmajor, hminor⟩

/-- A text that starts with an API version does so in front of a dash that is put behind it. -/
theorem Starts.of_dash {ds : List Char} (h : Starts api rest (cs ++ '-' :: ds)) :
    ∃ more, rest = more ++ '-' :: ds ∧ Starts api more cs := by
  obtain ⟨major, minor, hcs, hmajor, hminor⟩ := h
  have hsplit : cs ++ '-' :: ds = (major ++ '.' :: minor) ++ rest := by
    simp [hcs]
  rcases List.append_eq_append_iff.1 hsplit with ⟨more, hmore, hrest⟩ | ⟨more, hmore, hrest⟩
  · -- The dash would be in one of the numerals, unless it stands right behind them.
    cases more with
    | nil => exact ⟨[], hrest.symm, major, minor, by simpa using hmore.symm, hmajor, hminor⟩
    | cons c more =>
      obtain ⟨rfl, -⟩ := List.cons.inj hrest
      exact absurd (by rw [hmore]; simp) (dash_not_mem hmajor hminor)
  · exact ⟨more, hrest, major, minor, by simp [hmore], hmajor, hminor⟩

theorem closes_dash_iff {ds : List Char} : Closes (rest ++ '-' :: ds) ↔ Closes rest := by
  cases rest with
  | nil => exact iff_of_true (.mark (by simp) ds) .nothing
  | cons c rest =>
    constructor
    · intro h
      cases h with
      | mark hc => exact .mark hc rest
    · intro h
      cases h with
      | mark hc => exact .mark hc (rest ++ '-' :: ds)

/-- What is behind a dash has no part in the API version. -/
theorem ofVersion?_dash (h : version.toList.getLast? ≠ some '\n') (rest : String) :
    ofVersion? (version ++ "-" ++ rest) = ofVersion? version := by
  ext api
  have hchars : (version ++ "-" ++ rest).toList = version.toList ++ '-' :: rest.toList := by
    simp
  rw [ofVersion?_eq_some_iff, ofVersion?_eq_some_iff, hchars]
  constructor
  · rintro ⟨tail, hstarts, htail⟩
    obtain ⟨more, rfl, hmore⟩ := hstarts.of_dash
    refine ⟨more, hmore, Or.inl (closes_dash_iff.1 (htail.resolve_right fun hfeed => ?_))⟩
    have hdash : '-' ∈ ['\n'] := by
      rw [← hfeed]
      simp
    exact absurd hdash (by decide)
  · rintro ⟨tail, hstarts, hclose | rfl⟩
    · exact ⟨_, hstarts.append ('-' :: rest.toList), Or.inl (closes_dash_iff.2 hclose)⟩
    · obtain ⟨major, minor, hcs, -⟩ := hstarts
      refine absurd ?_ h
      rw [hcs, ← List.cons_append, ← List.append_assoc, List.getLast?_concat]

/-! ## What is written -/

/-- A text that states an API version in canonical numerals. -/
def StatedBy (api : ApiVersion) (text : String) : Prop :=
  ∃ major minor, text.toList = major ++ '.' :: minor ∧ Canonical major api.major ∧
    Canonical minor api.minor

/-- An API version is stated by its text only. -/
theorem statedBy_iff {text : String} : api.StatedBy text ↔ text = api.text := by
  have hchars : api.text.toList =
      (decimal api.major).toList ++ '.' :: (decimal api.minor).toList := by
    simp [ApiVersion.text]
  constructor
  · rintro ⟨major, minor, htext, hmajor, hminor⟩
    rw [canonical_iff] at hmajor hminor
    rw [← String.toList_inj, hchars, htext, hmajor, hminor]
  · rintro rfl
    exact ⟨_, _, hchars, canonical_decimal api.major, canonical_decimal api.minor⟩

/-- An API version is that of its own text. -/
theorem ofVersion?_text (api : ApiVersion) : ofVersion? api.text = some api := by
  obtain ⟨major, minor, htext, hmajor, hminor⟩ := statedBy_iff.2 (Eq.refl api.text)
  rw [ofVersion?_eq_some_iff]
  exact ⟨[], ⟨major, minor, by rw [htext, List.append_nil], hmajor.numeral, hminor.numeral⟩,
    Or.inl .nothing⟩

theorem text_injective {b : ApiVersion} (h : api.text = b.text) : api = b := by
  have hread : some api = some b := by rw [← ofVersion?_text, ← ofVersion?_text, h]
  exact Option.some.inj hread

/-! ## Ranges -/

/-- API versions are in order by their first number, and by the second if it is the same. -/
def Before (v w : ApiVersion) : Prop :=
  v.major < w.major ∨ v.major = w.major ∧ v.minor < w.minor

/-- The API versions from one on and before another. -/
def InRange (first behind v : ApiVersion) : Prop :=
  ¬ v.Before first ∧ v.Before behind

/-- The range up to the next API version meets the one behind it.  No API version is between
the two, and none is in both. -/
theorem inRange_next (first v : ApiVersion) :
    (InRange first first.next.next v ↔
      InRange first first.next v ∨ InRange first.next first.next.next v) ∧
    ¬ (InRange first first.next v ∧ InRange first.next first.next.next v) := by
  simp only [InRange, Before, next]
  omega

end ApiVersion

namespace Variables

open ApiVersion

variable {version : String} {api : ApiVersion}

theorem apiOf_eq_ok_iff : apiOf version = .ok api ↔ ofVersion? version = some api := by
  unfold apiOf
  cases ofVersion? version with
  | none => simp
  | some _ => simp

theorem exists_apiOf_iff : (∃ api, apiOf version = .ok api) ↔
    WellFormed version ∨ ∃ api, Starts api ['\n'] version.toList := by
  constructor
  · rintro ⟨api, h⟩
    obtain ⟨rest, hstarts, hcloses | rfl⟩ := ofVersion?_eq_some_iff.1 (apiOf_eq_ok_iff.1 h)
    · exact Or.inl ⟨api, rest, hstarts, hcloses⟩
    · exact Or.inr ⟨api, hstarts⟩
  · rintro (⟨api, rest, hstarts, hcloses⟩ | ⟨api, hstarts⟩)
    · exact ⟨api, apiOf_eq_ok_iff.2 (ofVersion?_eq_some_iff.2 ⟨rest, hstarts, Or.inl hcloses⟩)⟩
    · exact ⟨api, apiOf_eq_ok_iff.2 (ofVersion?_eq_some_iff.2 ⟨_, hstarts, Or.inr rfl⟩)⟩

/-- The versions that have an API version are the well-formed ones and those that end in a
single line feed behind the second number.  Any other is refused as invalid. -/
theorem apiOf_accepts_iff (version : String) :
    ((∃ api, apiOf version = .ok api) ↔
      WellFormed version ∨ ∃ api, Starts api ['\n'] version.toList) ∧
    ∀ e, apiOf version = .error e ↔ e = .invalidVersion version ∧
      ¬ (WellFormed version ∨ ∃ api, Starts api ['\n'] version.toList) := by
  refine ⟨exists_apiOf_iff, fun e => ?_⟩
  rw [← exists_apiOf_iff]
  unfold apiOf
  cases ofVersion? version with
  | none => simp [eq_comm]
  | some _ => simp

theorem apiOf_lineFeed : apiOf "1.2\n" = .ok ⟨1, 2⟩ ∧ ¬ WellFormed "1.2\n" := by
  refine ⟨by decide +kernel, ?_⟩
  rintro ⟨api, rest, hstarts, hcloses⟩
  have hrest := not_isDigit_of_endsNumber (endsNumber_iff.2 (Or.inl hcloses))
  obtain ⟨behind, hbehind, rfl, -⟩ := hstarts.runs hrest
  have hdot : "1.2\n".toList.dropWhile isDigit = ['.', '2', '\n'] := by decide +kernel
  rw [hdot] at hbehind
  cases hbehind
  have hfeed : ['2', '\n'].dropWhile isDigit = ['\n'] := by decide +kernel
  rw [hfeed] at hcloses
  cases hcloses with
  | mark hc => simp at hc

/-- The text of an API version and that of the next are the canonical ones, however the
version writes the numbers.  Each is read as what it states, so the ranges of successive API
versions meet, and two versions have the same texts if they start with the same numbers. -/
theorem apiOf_canonical (h : apiOf version = .ok api) :
    (∃ rest, Starts api rest version.toList ∧ (Closes rest ∨ rest = ['\n'])) ∧
    (∀ a, StatedBy ⟨api.major, api.minor⟩ a ↔ a = api.text) ∧
    (∀ n, StatedBy ⟨api.major, api.minor + 1⟩ n ↔ n = api.next.text) ∧
    apiOf api.text = .ok api ∧
    apiOf api.next.text = .ok api.next ∧
    (∀ n', StatedBy ⟨api.major, api.minor + 2⟩ n' ↔ n' = api.next.next.text) ∧
    (∀ v, (InRange api api.next.next v ↔
        InRange api api.next v ∨ InRange api.next api.next.next v) ∧
      ¬ (InRange api api.next v ∧ InRange api.next api.next.next v)) ∧
    ∀ other b, apiOf other = .ok b → ((api.text, api.next.text) = (b.text, b.next.text) ↔
      api.major = b.major ∧ api.minor = b.minor) := by
  refine ⟨ofVersion?_eq_some_iff.1 (apiOf_eq_ok_iff.1 h), fun _ => statedBy_iff,
    fun _ => statedBy_iff, apiOf_eq_ok_iff.2 (ofVersion?_text api),
    apiOf_eq_ok_iff.2 (ofVersion?_text api.next), fun _ => statedBy_iff, inRange_next api,
    fun other b _ => ⟨fun hsame => ?_, fun hsame => ?_⟩⟩
  · rw [text_injective (Prod.mk.inj hsame).1]
    exact ⟨rfl, rfl⟩
  · obtain ⟨hmajor, hminor⟩ := hsame
    have hapi : api = b := by
      cases api
      cases b
      simp_all
    rw [hapi]

theorem apiOf_canonical_carry :
    apiOf "٠4.٩99-r\n" = .ok ⟨4, 999⟩ ∧ apiOf "4.999" = .ok ⟨4, 999⟩ ∧
      apiOf "4.1000" = .ok ⟨4, 1000⟩ := by
  have h : apiOf "٠4.٩99-r\n" = .ok ⟨4, 999⟩ := by decide +kernel
  obtain ⟨-, -, -, hread, hreadNext, -⟩ := apiOf_canonical h
  have htext : (⟨4, 999⟩ : ApiVersion).text = "4.999" := by decide +kernel
  have hnext : (⟨4, 999⟩ : ApiVersion).next.text = "4.1000" := by decide +kernel
  rw [htext] at hread
  rw [hnext] at hreadNext
  exact ⟨h, hread, hreadNext⟩

end Variables

end ModBuild
