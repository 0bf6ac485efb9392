import ModBuild.Descriptor.Load
import ModBuild.Proofs.Encoding.Utf8
import ModBuild.Proofs.World.Failing

/-!
# How a descriptor is loaded

Loading a descriptor reads one file and changes nothing.  It keeps its contract if it gives a
descriptor or refuses the file as a malformed one.  Three kinds of failure break it: the path
holds the character U+0000, the file is no UTF-8, or a scalar of the document has no value.
They are exactly the failures that are not answered (`Descriptor.load_keeps_iff`).
-/

namespace ModBuild

open ModBuild.Action

namespace Descriptor

/-- The outcome is a descriptor, or the file is refused as a malformed one. -/
def Keeps (outcome : Except Failure Descriptor) : Prop :=
  (∃ d, outcome = .ok d) ∨ ∃ f, outcome = .error f ∧ f.kind = .malformedDescriptor

theorem not_keeps {f : Failure} (h : f.kind ≠ .malformedDescriptor) : ¬ Keeps (.error f) := by
  rintro (⟨_, ⟨⟩⟩ | ⟨_, ⟨⟩, hkind⟩)
  exact h hkind

/-- A file that is read in keeps the contract unless a scalar of it has no value. -/
theorem keeps_ofText_iff {p : Path} {text : List Char} :
    Keeps (ofText p text) ↔
      ∀ fault, Yaml.read (Text.unifyBreaks text) ≠ .error (.scalar fault) := by
  rw [ofText]
  cases hread : Yaml.read (Text.unifyBreaks text) with
  | error fault =>
    cases fault with
    | notYaml => exact iff_of_true (Or.inr ⟨_, rfl, rfl⟩) nofun
    | scalar fault =>
      refine iff_of_false (not_keeps ?_) fun h => h fault rfl
      rw [Failure.kind]
      split <;> nofun
  | ok document =>
    refine iff_of_true ?_ nofun
    dsimp only
    cases ofValue document with
    | ok d => exact Or.inl ⟨d, rfl⟩
    | error fault => exact Or.inr ⟨_, rfl, rfl⟩

theorem keeps_ofOctets_iff {p : Path} {octets : List UInt8} :
    Keeps (ofOctets p octets) ↔
      ∃ text, Encoding.Utf8.encode text = octets ∧
        ∀ fault, Yaml.read (Text.unifyBreaks text) ≠ .error (.scalar fault) := by
  rw [ofOctets]
  cases htext : Encoding.Utf8.decode octets with
  | error e =>
    refine iff_of_false (not_keeps nofun) ?_
    rintro ⟨text, hencode, -⟩
    rw [Encoding.Utf8.decode_eq_ok_iff.2 hencode] at htext
    cases htext
  | ok text =>
    have hencode := Encoding.Utf8.decode_eq_ok_iff.1 htext
    rw [keeps_ofText_iff]
    constructor
    · exact fun h => ⟨text, hencode, h⟩
    · rintro ⟨other, hother, h⟩
      obtain rfl := Encoding.Utf8.encode_injective (hother.trans hencode.symm)
      exact h

/-- A file that can be read is loaded from its octets. -/
theorem runIn_load_of_contents {p : Path} {w : World} {octets : List UInt8}
    (h : w.contents p = .ok octets) : (load p).runIn w = (ofOctets p octets, w) := by
  rw [load, runIn_bind_ok (runIn_attempt _ w), runIn_readFile, h]
  exact runIn_ofExcept _ w

/-- A file that cannot be read is refused as a malformed descriptor if it is the file system
that says so. -/
theorem runIn_load_of_error {p : Path} {w : World} {f : Failure} (h : w.contents p = .error f) :
    ∃ g, (load p).runIn w = (.error g, w) ∧
      ((∃ cause, f = .os cause) → g.kind = .malformedDescriptor) ∧
      (f = .nullInPath → g = .nullInPath) := by
  rw [load, runIn_bind_ok (runIn_attempt _ w), runIn_readFile, h]
  cases f with
  | os cause => cases cause <;> exact ⟨_, rfl, fun _ => rfl, nofun⟩
  | _ => exact ⟨_, rfl, nofun, id⟩

/-- Loading changes nothing.  It gives a descriptor or refuses the file as a malformed one
exactly if the path does not hold U+0000 and the file, if there is one, is written in UTF-8 and
has a value for each of its scalars. -/
theorem load_keeps_iff (p : Path) (w : World) :
    ((load p).runIn w).2 = w ∧
      (Keeps ((load p).runIn w).1 ↔ p.hasNull = false ∧
        ∀ octets, w.contents p = .ok octets → ∃ text, Encoding.Utf8.encode text = octets ∧
          ∀ fault, Yaml.read (Text.unifyBreaks text) ≠ .error (.scalar fault)) := by
  cases hcontents : w.contents p with
  | ok octets =>
    have hnull : p.hasNull = false := by
      rw [← Bool.not_eq_true]
      intro htrue
      rw [contents_of_hasNull htrue] at hcontents
      cases hcontents
    rw [runIn_load_of_contents hcontents, keeps_ofOctets_iff]
    exact ⟨rfl, fun h => ⟨hnull, fun _ ho => Except.ok.inj ho ▸ h⟩, fun h => h.2 octets rfl⟩
  | error f =>
    obtain ⟨g, hrun, hos, hpath⟩ := runIn_load_of_error hcontents
    rw [hrun]
    refine ⟨rfl, ?_⟩
    cases hnull : p.hasNull with
    | false =>
      exact iff_of_true (Or.inr ⟨g, rfl, hos (contents_eq_error hcontents hnull)⟩)
        ⟨rfl, nofun⟩
    | true =>
      rw [contents_of_hasNull hnull] at hcontents
      cases hcontents
      rw [hpath rfl]
      exact iff_of_false (not_keeps nofun) nofun

/-- A world with a file that is no UTF-8. -/
def foreignOctets : World :=
  .offline ⟨[(["d"], .file [0xFF])]⟩

theorem load_keeps_foreignOctets :
    ¬ Keeps ((load (.ofString "d")).runIn foreignOctets).1 := by
  have hrun : ((load (.ofString "d")).runIn foreignOctets).1 =
      .error (.notText ⟨.utf8, 0, 1, 0xFF, .badStart⟩) := by
    decide +kernel
  rw [hrun]
  exact not_keeps nofun

end Descriptor

end ModBuild
