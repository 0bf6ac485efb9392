import ModBuild.Proofs.Descriptor.Load
import ModBuild.Proofs.Json.Read

/-!
# Loading a descriptor from a JSON file

A file in JSON is loaded as YAML.  If it is YAML, the outcome is that of the document as YAML
reads it, and otherwise the file is refused, also where the document is a descriptor
(`Descriptor.load_json_same_iff`).
-/

namespace ModBuild.Descriptor

open Document (Value)

/-- Two outcomes are the same descriptor, or both refuse something as a malformed descriptor. -/
inductive SameOutcome : Except Failure Descriptor → Except Failure Descriptor → Prop
  | descriptor (d : Descriptor) : SameOutcome (.ok d) (.ok d)
  | malformed {f g : Failure} : f.kind = .malformedDescriptor → g.kind = .malformedDescriptor →
      SameOutcome (.error f) (.error g)

/-- A document that is no descriptor is refused as such, whatever the fault. -/
theorem sameOutcome_mapError_iff {x y : Except Fault Descriptor} {label label' : String} :
    SameOutcome (x.mapError (.malformed label)) (y.mapError (.malformed label')) ↔
      y.toOption = x.toOption := by
  cases x with
  | ok d =>
    cases y with
    | ok e =>
      constructor
      · rintro ⟨⟩
        rfl
      · intro h
        obtain rfl := Option.some.inj h
        exact .descriptor _
    | error g => exact ⟨nofun, nofun⟩
  | error f =>
    cases y with
    | ok e => exact ⟨nofun, nofun⟩
    | error g => exact ⟨fun _ => rfl, fun _ => .malformed rfl rfl⟩

theorem sameOutcome_error_iff {f : Failure} (hf : f.kind = .malformedDescriptor)
    {y : Except Fault Descriptor} {label : String} :
    SameOutcome (.error f) (y.mapError (.malformed label)) ↔ y.toOption = none := by
  cases y with
  | ok e => exact ⟨nofun, nofun⟩
  | error g => exact ⟨fun _ => rfl, fun _ => .malformed hf rfl⟩

variable {p : Path} {w : World} {t : Json.Text} {v u : Value}

/-- A JSON file is loaded as the document that YAML reads, or refused if it is not YAML. -/
theorem runIn_load_json (hfile : w.contents p = .ok (Encoding.Utf8.encode t.chars))
    (hu : Json.Encodes .yaml t.pieces (.value u)) :
    (load p).runIn w =
      (if t.isYaml then (ofValue u).mapError (.malformed p.toString) else .error (.notYaml p),
        w) := by
  rw [runIn_load_of_contents hfile, ofOctets, Encoding.Utf8.decode_eq_ok_iff.2 rfl]
  simp only [ofText, Yaml.read_json hu]
  cases t.isYaml <;> rfl

/-- The outcome for a JSON file is that of the document in it exactly if the document and what YAML
reads are the same descriptor, or neither of them is one, where a file that is not YAML counts as
none.  YAML reads something, if the text is YAML, and if the text is plain, it reads the document
itself. -/
theorem load_json_same_iff (hfile : w.contents p = .ok (Encoding.Utf8.encode t.chars))
    (hv : t.Encodes v) :
    ((load p).runIn w).2 = w ∧ (∃ u, Json.Encodes .yaml t.pieces (.value u)) ∧
      (∀ u, Json.Encodes .yaml t.pieces (.value u) →
        (SameOutcome ((load p).runIn w).1 ((ofValue v).mapError (.malformed p.toString)) ↔
          (ofValue v).toOption = if t.isYaml then (ofValue u).toOption else none)) ∧
      (t.isPlain →
        (SameOutcome ((load p).runIn w).1 ((ofValue v).mapError (.malformed p.toString)) ↔
          t.isYaml ∨ (ofValue v).toOption = none)) := by
  have hsame : ∀ u, Json.Encodes .yaml t.pieces (.value u) →
      (SameOutcome ((load p).runIn w).1 ((ofValue v).mapError (.malformed p.toString)) ↔
        (ofValue v).toOption = if t.isYaml then (ofValue u).toOption else none) := by
    intro u hu
    rw [runIn_load_json hfile hu]
    cases t.isYaml with
    | false => exact sameOutcome_error_iff rfl
    | true => exact sameOutcome_mapError_iff
  obtain ⟨_, hu, ⟨⟩⟩ := Json.Encodes.exists_same hv .yaml
  refine ⟨by rw [runIn_load_json hfile hu], ⟨_, hu⟩, hsame, fun hplain => ?_⟩
  rw [hsame v (hv.yaml hplain)]
  cases t.isYaml <;> simp

/-- A JSON text with the document that it encodes. -/
structure Encoded where
  text : Json.Text
  value : Value
  encodes : text.Encodes value

/-- A text, each character that can stand for itself spelled so. -/
def spelled (s : String) : List Json.Glyph :=
  s.toList.filterMap fun c => if h : Json.isUnescaped c then some (.plain c h) else none

/-- A world with a JSON text in a file. -/
def Encoded.world (x : Encoded) : World :=
  .offline ⟨[(["d"], .file (Encoding.Utf8.encode x.text.chars))]⟩

theorem Encoded.contents_world (x : Encoded) :
    x.world.contents (.ofString "d") = .ok (Encoding.Utf8.encode x.text.chars) := rfl

/-- A descriptor on one line, with some white space behind its first brace. -/
def small (g : Json.Gap) : Encoded :=
  let no : Json.Gap := ⟨[], rfl⟩
  ⟨⟨_, no⟩, _, .object no g (spelled "mod") no
    (.object no no (spelled "dependencies") no (.emptyObject no no)
      (.member no no (spelled "pkg") no (.scalar no (.string (spelled "p")))
        (.member no no (spelled "cls") no (.scalar no (.string (spelled "M")))
          (.member no no (spelled "name") no (.scalar no (.string (spelled "n")))
            (.member no no (spelled "id") no (.scalar no (.string (spelled "i")))
              (.member no no (spelled "version") no (.scalar no (.string (spelled "1")))
                (.endObject no)))))))
    (.member no no (spelled "umc") no
      (.object no no (spelled "version") no (.scalar no (.string (spelled "2"))) (.endObject no))
      (.endObject no))⟩

theorem load_json_same_small :
    SameOutcome ((load (.ofString "d")).runIn (small ⟨['\n'], rfl⟩).world).1
      ((ofValue (small ⟨['\n'], rfl⟩).value).mapError (.malformed "d")) :=
  (((load_json_same_iff (small ⟨['\n'], rfl⟩).contents_world
    (small ⟨['\n'], rfl⟩).encodes).2.2.2 (by decide +kernel)).2 (Or.inl (by decide +kernel)))

theorem load_json_differs_small :
    (small ⟨['\t'], rfl⟩).text.Encodes (small ⟨['\t'], rfl⟩).value ∧
      ¬ SameOutcome ((load (.ofString "d")).runIn (small ⟨['\t'], rfl⟩).world).1
        ((ofValue (small ⟨['\t'], rfl⟩).value).mapError (.malformed "d")) := by
  have hload : ((load (.ofString "d")).runIn (small ⟨['\t'], rfl⟩).world).1 =
      .error (.notYaml (.ofString "d")) := by
    decide +kernel
  have hread : ∃ d, ofValue (small ⟨['\t'], rfl⟩).value = .ok d := ⟨_, rfl⟩
  refine ⟨(small ⟨['\t'], rfl⟩).encodes, ?_⟩
  obtain ⟨d, hd⟩ := hread
  rw [hload, hd]
  exact nofun

end ModBuild.Descriptor
