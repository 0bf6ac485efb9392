import ModBuild.Path
import ModBuild.Proofs.Text.Split

/-!
# Paths that are read back

A path is *normal* if its segments are such as reading gives them: none is empty or a
single dot, and none holds a slash.  A path that is read is normal, and so is one that is
joined of normal paths.  The text of a normal path reads as the path itself
(`IsNormal.ofString_toString`).  A segment behind a path is its name, and the path is its
parent (`name_div`, `parent_div`).
-/

namespace ModBuild

namespace Path

/-- A text that can be a segment of a path. -/
def IsSegment (s : String) : Prop :=
  s ≠ "" ∧ s ≠ "." ∧ '/' ∉ s.toList

instance (s : String) : Decidable (IsSegment s) :=
  inferInstanceAs (Decidable (_ ∧ _))

theorem IsSegment.toList_ne_nil {s : String} (h : IsSegment s) : s.toList ≠ [] :=
  fun he => h.1 (String.toList_inj.1 (by simpa using he))

/-- A path with segments such as reading gives them. -/
def IsNormal (p : Path) : Prop :=
  ∀ s ∈ p.segments, IsSegment s

instance (p : Path) : Decidable p.IsNormal :=
  inferInstanceAs (Decidable (∀ s ∈ p.segments, IsSegment s))

theorem isNormal_ofString (text : String) : (ofString text).IsNormal := by
  intro s hs
  obtain ⟨f, hf, rfl⟩ := List.mem_map.1 hs
  obtain ⟨hmem, hkept⟩ := List.mem_filter.1 hf
  obtain ⟨hnil, hdot⟩ := of_decide_eq_true hkept
  refine ⟨fun he => hnil ?_, fun he => hdot ?_, ?_⟩
  · simpa using congrArg String.toList he
  · simpa using congrArg String.toList he
  · rw [String.toList_ofList]
    exact Text.not_mem_of_mem_fields hmem

namespace IsNormal

variable {p q : Path}

theorem div (hp : p.IsNormal) (hq : q.IsNormal) : (p / q : Path).IsNormal := by
  change (join p q).IsNormal
  unfold join
  split
  · intro s hs
    rcases List.mem_append.1 hs with hs | hs
    · exact hp s hs
    · exact hq s hs
  · exact hq

/-- Segments are fields that reading keeps. -/
theorem filter_segments (hp : p.IsNormal) :
    ((p.segments.map String.toList).filter fun f => f ≠ [] ∧ f ≠ ['.']).map String.ofList =
      p.segments := by
  have hkeep : ∀ f ∈ p.segments.map String.toList, decide (f ≠ [] ∧ f ≠ ['.']) = true := by
    intro f hf
    obtain ⟨s, hs, rfl⟩ := List.mem_map.1 hf
    refine decide_eq_true ⟨(hp s hs).toList_ne_nil, fun he => (hp s hs).2.1 ?_⟩
    exact String.toList_inj.1 (by simpa using he)
  rw [List.filter_eq_self.2 hkeep, List.map_map]
  exact (List.map_congr_left fun s _ => String.ofList_toList).trans (List.map_id _)

/-- What is read off the segments with slashes between them. -/
theorem filter_fields_joined (hp : p.IsNormal) :
    (((Text.fields '/' p.joined).filter fun f => f ≠ [] ∧ f ≠ ['.']).map String.ofList) =
      p.segments := by
  obtain ⟨root, segments⟩ := p
  cases segments with
  | nil => rfl
  | cons s ss =>
    have hslash : ∀ f ∈ s.toList :: ss.map String.toList, '/' ∉ f := by
      intro f hf
      obtain ⟨s', hs', rfl⟩ := List.mem_map.1 (List.map_cons (f := String.toList) ▸ hf)
      exact (hp s' hs').2.2
    rw [joined, List.map_cons, Text.fields_intercalate hslash (List.cons_ne_nil _ _)]
    exact hp.filter_segments

/-- The segments do not start with a slash. -/
theorem joined_ne_slash (hp : p.IsNormal) (cs : List Char) : p.joined ≠ '/' :: cs := by
  obtain ⟨root, segments⟩ := p
  cases segments with
  | nil => nofun
  | cons s ss =>
    have hs : IsSegment s := hp s List.mem_cons_self
    intro he
    cases hchars : s.toList with
    | nil => exact hs.toList_ne_nil hchars
    | cons c cs' =>
      have hc : c = '/' := by
        rw [joined, List.map_cons, hchars] at he
        cases ss <;> simp [List.intercalate] at he <;> exact he.1
      exact hs.2.2 (by rw [hchars, hc]; exact List.mem_cons_self)

theorem rootOf_joined (hp : p.IsNormal) : rootOf (p.root.text ++ p.joined) = p.root := by
  have hslash := hp.joined_ne_slash
  generalize p.joined = cs at hslash ⊢
  cases cs with
  | nil => cases p.root <;> rfl
  | cons c cs =>
    have hc : c ≠ '/' := fun hc => hslash cs (by rw [hc])
    cases p.root <;> simp [rootOf, Root.text, hc]

/-- The slashes in front are before empty fields, which reading drops. -/
theorem filter_fields_text (root : Root) (cs : List Char) :
    ((Text.fields '/' (root.text ++ cs)).filter fun f => f ≠ [] ∧ f ≠ ['.']) =
      (Text.fields '/' cs).filter fun f => f ≠ [] ∧ f ≠ ['.'] := by
  cases root <;> simp [Root.text, Text.fields]

/-- The text of a normal path reads as the path. -/
theorem ofString_toString (hp : p.IsNormal) : ofString p.toString = p := by
  have hchars (text : List Char) (h : text = p.root.text ++ p.joined) :
      ofString (.ofList text) = p := by
    obtain ⟨root, segments⟩ := p
    rw [ofString, String.toList_ofList, h, hp.rootOf_joined, filter_fields_text,
      hp.filter_fields_joined]
  rw [toString]
  split
  · next hempty =>
    -- Only the path without root and segments has an empty text, and a dot reads as it too.
    rw [← hchars [] hempty.symm]
    rfl
  · exact hchars _ rfl

end IsNormal

/-! ## Segments -/

theorem toString_segment {s : String} (h : IsSegment s) : toString ⟨.relative, [s]⟩ = s := by
  rw [toString, if_neg]
  · simp [Root.text, joined]
  · simpa [Root.text, joined] using h.toList_ne_nil

/-- A segment reads as the path of it alone. -/
theorem ofString_segment {s : String} (h : IsSegment s) : ofString s = ⟨.relative, [s]⟩ := by
  have hnormal : IsNormal ⟨.relative, [s]⟩ := fun t ht => List.mem_singleton.1 ht ▸ h
  have hread := hnormal.ofString_toString
  rwa [toString_segment h] at hread

theorem div_segment {s : String} (h : IsSegment s) (p : Path) :
    p / ofString s = ⟨p.root, p.segments ++ [s]⟩ := by
  rw [ofString_segment h]
  rfl

theorem name_div {s : String} (h : IsSegment s) (p : Path) : (p / ofString s).name = s := by
  rw [div_segment h, name, List.getLast?_concat]
  rfl

theorem parent_div {s : String} (h : IsSegment s) (p : Path) : (p / ofString s).parent = p := by
  rw [div_segment h, parent]
  simp

/-- The last suffix of a name starts at the last dot. -/
theorem suffixStart?_append {front behind : List Char} (hfront : front ≠ [])
    (hbehind : behind ≠ []) (h : '.' ∉ behind) :
    suffixStart? (front ++ '.' :: behind) = some front.length := by
  have hafter : ((front ++ '.' :: behind).reverse.takeWhile (· ≠ '.')).length = behind.length := by
    have hall : ∀ c ∈ behind.reverse, decide (c ≠ '.') = true := fun c hc =>
      decide_eq_true fun he => h (he ▸ List.mem_reverse.1 hc)
    rw [List.reverse_append, List.reverse_cons, List.append_assoc,
      List.takeWhile_append_of_pos hall]
    simp
  have hf : 0 < front.length := List.length_pos_iff.2 hfront
  have hb : 0 < behind.length := List.length_pos_iff.2 hbehind
  rw [suffixStart?, hafter, List.length_append, List.length_cons, if_pos (by omega)]
  congr 1
  omega

/-- The stem of a name that ends with a suffix, whatever dots are in front of it. -/
theorem stem_of_suffix {p : Path} {front behind : List Char} (hfront : front ≠ [])
    (hbehind : behind ≠ []) (h : '.' ∉ behind) (hp : p.name.toList = front ++ '.' :: behind) :
    p.stem = .ofList front := by
  rw [stem, hp, suffixStart?_append hfront hbehind h]
  dsimp only
  rw [List.take_left]

end Path

end ModBuild
