import ModBuild.Document.Entries
import ModBuild.Proofs.Template.Render
import ModBuild.Proofs.Text.Split

/-!
# Delimited tokens and fields

If no name holds a `#`, a text with delimited tokens can be rendered without a search for
the longest token.  The text is cut into fields at every `#`, and a walk over the fields
replaces those that are a name between two marks (`walk`).  A mark that ends a token is
used up, so the field behind it is kept as it is.

The reason is that two tokens which start at one place are equal (`token_unique`).  Hence
the order in which the tokens are tried does not matter.

Two tokens can still share a mark.  It belongs to the left one, unless the first mark of this
one is used up by a token before it.  Then it belongs to the right one (`Cut.left_iff`,
`Cut.right_iff`).  So of three tokens in a row, each of which shares a mark with the next, the
first and the third are replaced (`render_threeInARow`).
-/

namespace ModBuild.Template

open Text (fields)

/-! ## The walk -/

/-- What is emitted for the fields behind the first, each of which stands behind a mark.
The last one has no mark behind it. -/
def walkFrom (table : List (String × String)) : List (List Char) → List Char
  | [] => []
  | [f] => '#' :: f
  | f :: g :: fs =>
    match Document.Entries.get? (String.ofList f) table with
    | some value => value.toList ++ (g ++ walkFrom table fs)
    | none => '#' :: (f ++ walkFrom table (g :: fs))

/-- What is emitted for the fields of a text. -/
def walk (table : List (String × String)) : List (List Char) → List Char
  | [] => []
  | f :: fs => f ++ walkFrom table fs

/-! ## Where a word stands -/

section Stands

variable {α : Type} {items : List (Item α)} {pre prior w u : List α}

/-- A word is an item of a text, and stands behind a part of it. -/
def StandsBehind (items : List (Item α)) (pre w : List α) : Prop :=
  ∃ before after, items = before ++ .word w :: after ∧ before.flatMap Item.source = pre

theorem StandsBehind.cons (h : StandsBehind items pre w) (i : Item α) :
    StandsBehind (i :: items) (i.source ++ pre) w := by
  obtain ⟨before, after, rfl, rfl⟩ := h
  exact ⟨i :: before, after, rfl, rfl⟩

/-- Behind a word another one is the same, or the word is part of what stands between. -/
theorem eq_or_prefix_between {between after after' : List (Item α)}
    (h : .word w :: after = between ++ .word u :: after') :
    (between = [] ∧ w = u) ∨ w <+: between.flatMap Item.source := by
  cases between with
  | nil =>
    cases h
    exact Or.inl ⟨rfl, rfl⟩
  | cons i between =>
    cases h
    exact Or.inr (List.prefix_append w _)

/-- Two words that are items are the same, or one ends before the other starts. -/
theorem StandsBehind.separate (h : StandsBehind items pre w) (h' : StandsBehind items prior u) :
    (pre = prior ∧ w = u) ∨ pre ++ w <+: prior ∨ prior ++ u <+: pre := by
  obtain ⟨before, after, rfl, rfl⟩ := h
  obtain ⟨before', after', he, rfl⟩ := h'
  rcases List.append_eq_append_iff.1 he with ⟨between, rfl, hitems⟩ | ⟨between, rfl, hitems⟩
  · rw [List.flatMap_append, List.prefix_append_right_inj]
    rcases eq_or_prefix_between hitems with ⟨rfl, rfl⟩ | hp
    · exact Or.inl ⟨by simp, rfl⟩
    · exact Or.inr (Or.inl hp)
  · rw [List.flatMap_append, List.prefix_append_right_inj]
    rcases eq_or_prefix_between hitems with ⟨rfl, rfl⟩ | hp
    · exact Or.inl ⟨by simp, rfl⟩
    · exact Or.inr (Or.inr hp)

end Stands

/-! ## Tokens between marks -/

section Tokens

variable {n m : String} {f rest : List Char}

theorem token_true (n : String) : token true n = '#' :: (n.toList ++ ['#']) := rfl

/-- The first mark of a text stands at one place only. -/
theorem split_mark {k r p s : List Char} (hk : '#' ∉ k) (h : k ++ '#' :: r = p ++ '#' :: s) :
    (p = k ∧ r = s) ∨ ∃ q, p = k ++ '#' :: q ∧ r = q ++ '#' :: s := by
  rcases List.append_eq_append_iff.1 h with ⟨q, rfl, hq⟩ | ⟨q, rfl, hq⟩
  · cases q with
    | nil => exact Or.inl ⟨List.append_nil k, by simpa using hq⟩
    | cons c q =>
      obtain ⟨rfl, rfl⟩ := List.cons.inj hq
      exact Or.inr ⟨q, rfl, rfl⟩
  · cases q with
    | nil => exact Or.inl ⟨(List.append_nil p).symm, by simpa using hq.symm⟩
    | cons c q =>
      obtain ⟨rfl, -⟩ := List.cons.inj hq
      exact absurd (by simp) hk

/-- A token starts at a mark that has another one behind it, and is told by the field
between the two. -/
theorem token_prefix_iff (hn : '#' ∉ n.toList) (hf : '#' ∉ f) :
    token true n <+: '#' :: (f ++ '#' :: rest) ↔ n.toList = f := by
  constructor
  · rintro ⟨t, ht⟩
    have hmarks : n.toList ++ '#' :: t = f ++ '#' :: rest := by
      simpa [token_true] using ht
    rcases split_mark hn hmarks with ⟨he, -⟩ | ⟨q, he, -⟩
    · exact he.symm
    · exact absurd (by rw [he]; simp) hf
  · rintro rfl
    exact ⟨rest, by simp [token_true]⟩

/-- No token starts at the last mark. -/
theorem not_token_prefix (hf : '#' ∉ f) : ¬ token true n <+: '#' :: f := by
  intro h
  obtain ⟨-, h⟩ := List.cons_prefix_cons.1 h
  exact hf (h.subset (by simp))

/-- At most one token starts at a place. -/
theorem token_unique (hn : '#' ∉ n.toList) (hm : '#' ∉ m.toList)
    (h : token true n <+: rest) (h' : token true m <+: rest) : n = m := by
  obtain ⟨t, rfl⟩ := h'
  have hmarks : token true m ++ t = '#' :: (m.toList ++ '#' :: t) := by simp [token_true]
  rw [hmarks, token_prefix_iff hn hm] at h
  exact String.toList_inj.1 h

end Tokens

section Names

variable {names : List String} {text : List Char} {items : List (Item Char)}

/-- No name holds a mark. -/
def Unmarked (names : List String) : Prop :=
  ∀ n ∈ names, '#' ∉ n.toList

theorem longest_token (hm : Unmarked names) {n : String} (hn : n ∈ names) (rest : List Char) :
    Longest (tokens true names) (token true n ++ rest) (token true n) where
  mem := List.mem_map_of_mem hn
  ne_nil := List.cons_ne_nil _ _
  starts := List.prefix_append _ rest
  longest u hu hs := by
    obtain ⟨k, hk, rfl⟩ := List.mem_map.1 hu
    rw [token_unique (hm k hk) (hm n hn) hs (List.prefix_append _ rest)]

theorem noneStarts_of_ne {c : Char} (hc : c ≠ '#') (rest : List Char) :
    NoneStarts (tokens true names) (c :: rest) := by
  intro w hw _ hs
  obtain ⟨n, -, rfl⟩ := List.mem_map.1 hw
  exact hc (List.cons_prefix_cons.1 hs).1.symm

/-- A field is cut into single items. -/
theorem Cut.field {f rest : List Char} (hf : '#' ∉ f) (h : Cut (tokens true names) rest items) :
    Cut (tokens true names) (f ++ rest) (f.map .single ++ items) :=
  h.singles fun _ hc => noneStarts_of_ne fun he => hf (he ▸ hc)

/-- A token that is an item ends with the mark behind a part of the text. -/
def MarkUsed (names : List String) (items : List (Item Char)) (pre : List Char) : Prop :=
  ∃ k ∈ names, ∃ prior, StandsBehind items prior (token true k) ∧
    prior ++ token true k = pre ++ ['#']

theorem MarkUsed.cons {pre : List Char} (h : MarkUsed names items pre) (i : Item Char) :
    MarkUsed names (i :: items) (i.source ++ pre) := by
  obtain ⟨k, hk, prior, hs, he⟩ := h
  exact ⟨k, hk, _, hs.cons i, by rw [List.append_assoc, he, List.append_assoc]⟩

/-- A token is longer than a mark, so it does not start with a mark that is used up. -/
theorem MarkUsed.not_stands {pre : List Char} (h : MarkUsed names items pre) (n : String) :
    ¬ StandsBehind items pre (token true n) := by
  intro hn
  obtain ⟨k, -, prior, hs, he⟩ := h
  have hlength := congrArg List.length he
  simp only [List.length_append, List.length_singleton] at hlength
  have htoken : 2 ≤ (token true n).length := by simp [token_true]
  rcases hn.separate hs with ⟨rfl, hword⟩ | hp | hp
  · rw [← hword] at hlength
    omega
  · have hle := hp.length_le
    rw [List.length_append] at hle
    omega
  · have hle := hp.length_le
    rw [List.length_append] at hle
    omega

/-- Every token in a text is an item of it, unless its first mark is used up. -/
theorem Cut.stands_or_used (hm : Unmarked names) (h : Cut (tokens true names) text items)
    {n : String} (hn : n ∈ names) {pre post : List Char}
    (ht : text = pre ++ (token true n ++ post)) :
    StandsBehind items pre (token true n) ∨ MarkUsed names items pre := by
  induction h generalizing pre with
  | nil => simp [token_true] at ht
  | @word w rest items hl _ ih =>
    obtain ⟨k, hk, rfl⟩ := List.mem_map.1 hl.mem
    cases pre with
    | nil =>
      have hs : token true n <+: token true k ++ rest := ⟨post, by simpa using ht.symm⟩
      have he := token_unique (hm n hn) (hm k hk) hs (List.prefix_append _ rest)
      exact Or.inl ⟨[], items, by rw [he]; rfl, rfl⟩
    | cons c pre =>
      -- The token stands at or behind the mark that ends the first item.
      obtain ⟨rfl, htail⟩ := List.cons.inj ht
      have hmarks : k.toList ++ '#' :: rest = pre ++ '#' :: (n.toList ++ '#' :: post) := by
        simpa [token_true] using htail
      rcases split_mark (hm k hk) hmarks with ⟨rfl, -⟩ | ⟨q, rfl, hrest⟩
      · exact Or.inr ⟨k, hk, [], ⟨[], items, rfl, rfl⟩, by simp [token_true]⟩
      · have hbehind : rest = q ++ (token true n ++ post) := by simp [hrest, token_true]
        have hpre : '#' :: (k.toList ++ '#' :: q) = (Item.word (token true k)).source ++ q := by
          simp [Item.source, token_true]
        rw [hpre]
        exact (ih hbehind).imp (·.cons _) (·.cons _)
  | @single c rest items hnone _ ih =>
    cases pre with
    | nil =>
      refine absurd ⟨post, ?_⟩ (hnone _ (List.mem_map_of_mem hn) (List.cons_ne_nil _ _))
      simpa using ht.symm
    | cons d pre =>
      obtain ⟨rfl, hrest⟩ := List.cons.inj ht
      exact (ih hrest).imp (·.cons (.single c)) (·.cons (.single c))

section Shared

variable {n m : String} {pre post : List Char}

/-- Of two tokens that share a mark, the left one is an item unless its first mark is used up. -/
theorem Cut.left_iff (hm : Unmarked names) (h : Cut (tokens true names) text items)
    (hn : n ∈ names) (ht : text = pre ++ (token true n ++ post)) :
    StandsBehind items pre (token true n) ↔ ¬ MarkUsed names items pre :=
  ⟨fun hs hused => hused.not_stands n hs, (h.stands_or_used hm hn ht).resolve_right⟩

/-- A token whose last mark is given ends with the field in front of this mark. -/
theorem eq_of_append_token {prior : List Char} {k : String} (hk : '#' ∉ k.toList)
    (hn : '#' ∉ n.toList) (h : prior ++ token true k = pre ++ '#' :: (n.toList ++ ['#'])) :
    prior = pre ∧ k = n := by
  have hreverse : k.toList.reverse ++ '#' :: prior.reverse =
      n.toList.reverse ++ '#' :: pre.reverse := by
    simpa [token_true] using congrArg List.reverse h
  rcases split_mark (by simpa using hk) hreverse with ⟨hname, hpre⟩ | ⟨q, hname, -⟩
  · exact ⟨List.reverse_inj.1 hpre, String.toList_inj.1 (List.reverse_inj.1 hname.symm)⟩
  · refine absurd ?_ hn
    rw [← List.mem_reverse, hname]
    simp

/-- The right one is an item only then. -/
theorem Cut.right_iff (hm : Unmarked names) (h : Cut (tokens true names) text items)
    (hn : n ∈ names) (hm' : m ∈ names)
    (ht : text = pre ++ '#' :: (n.toList ++ (token true m ++ post))) :
    StandsBehind items (pre ++ '#' :: n.toList) (token true m) ↔ MarkUsed names items pre := by
  have hleft : text = pre ++ (token true n ++ (m.toList ++ '#' :: post)) := by
    simpa [token_true] using ht
  have hright : text = (pre ++ '#' :: n.toList) ++ (token true m ++ post) := by
    simpa using ht
  -- The shared mark is used up by the left token, as only this one ends there.
  have hshared : MarkUsed names items (pre ++ '#' :: n.toList) ↔
      StandsBehind items pre (token true n) := by
    constructor
    · rintro ⟨k, hk, prior, hs, he⟩
      obtain ⟨rfl, rfl⟩ := eq_of_append_token (hm k hk) (hm n hn) (by simpa using he)
      exact hs
    · exact fun hs => ⟨n, hn, pre, hs, by simp [token_true]⟩
  rw [h.left_iff hm hm' hright, hshared, h.left_iff hm hn hleft, Classical.not_not]

end Shared

end Names

/-! ## The walk renders -/

section Table

variable {table : List (String × String)}

theorem flatMap_rendered_single {value : List Char → List Char} (h : value [] = [])
    (f : List Char) : (f.map Item.single).flatMap (Item.rendered value) = f := by
  induction f with
  | nil => rfl
  | cons c f ih => simp [Item.rendered, h, ih]

/-- There is no empty token between marks. -/
theorem valueOf_nil (h : (table.map (·.1)).Nodup) :
    valueOf (replacements true table) [] = [] := by
  refine (tokenValues_valueOf true h).of_no_empty fun he => ?_
  obtain ⟨n, -, hn⟩ := List.mem_map.1 he
  exact List.cons_ne_nil _ _ hn

/-- The items of the fields behind the first are rendered as the walk says.  The induction
follows the walk: a name between two marks is a word, and any other mark a single item. -/
theorem exists_cut_walkFrom (h : (table.map (·.1)).Nodup) (hm : Unmarked (table.map (·.1)))
    {fs : List (List Char)} (hfs : ∀ f ∈ fs, '#' ∉ f) :
    ∃ items, Cut (tokens true (table.map (·.1))) (fs.flatMap ('#' :: ·)) items ∧
      items.flatMap (Item.rendered (valueOf (replacements true table))) =
        walkFrom table fs := by
  have hnil := valueOf_nil h
  fun_induction walkFrom table fs with
  | case1 => exact ⟨[], .nil, rfl⟩
  | case2 f =>
    have hf : '#' ∉ f := hfs f List.mem_cons_self
    refine ⟨.single '#' :: (f.map .single ++ []), ?_, ?_⟩
    · have hcut : Cut (tokens true (table.map (·.1))) (f ++ []) (f.map .single ++ []) :=
        Cut.nil.field hf
      have hnone : NoneStarts (tokens true (table.map (·.1))) ('#' :: (f ++ [])) := by
        intro w hw _ hs
        obtain ⟨n, -, rfl⟩ := List.mem_map.1 hw
        exact not_token_prefix hf (by simpa using hs)
      exact .single hnone hcut
    · simp [Item.rendered, hnil, flatMap_rendered_single hnil]
  | case3 f g fs value hget ih =>
    obtain ⟨items, hcut, hrender⟩ := ih fun e he => hfs e (by simp [he])
    have hmem : (String.ofList f, value) ∈ table := Document.Entries.mem_of_get? hget
    have hn : String.ofList f ∈ table.map (·.1) := List.mem_map_of_mem hmem
    have hg : '#' ∉ g := hfs g (by simp)
    refine ⟨.word (token true (.ofList f)) :: (g.map .single ++ items), ?_, ?_⟩
    · have htext : (f :: g :: fs).flatMap ('#' :: ·) =
          token true (.ofList f) ++ (g ++ fs.flatMap ('#' :: ·)) := by
        simp [token_true]
      rw [htext]
      exact .word (longest_token hm hn _) (hcut.field hg)
    · have hvalue := (tokenValues_valueOf true h).of_mem _ hmem
      simp only [List.flatMap_cons, List.flatMap_append, Item.rendered, hvalue, hrender,
        flatMap_rendered_single hnil]
  | case4 f g fs hget ih =>
    obtain ⟨items, hcut, hrender⟩ := ih fun e he => hfs e (List.mem_cons_of_mem f he)
    have hf : '#' ∉ f := hfs f List.mem_cons_self
    refine ⟨.single '#' :: (f.map .single ++ items), ?_, ?_⟩
    · have hnone : NoneStarts (tokens true (table.map (·.1)))
          ('#' :: (f ++ (g :: fs).flatMap ('#' :: ·))) := by
        intro w hw _ hs
        obtain ⟨n, hn, rfl⟩ := List.mem_map.1 hw
        obtain ⟨v, hv, rfl⟩ := List.mem_map.1 hn
        have he : v.1.toList = f := (token_prefix_iff (hm _ hn) hf).1 hs
        rw [← he, String.ofList_toList, Document.Entries.get?_of_mem h hv] at hget
        cases hget
      exact .single hnone (hcut.field hf)
    · simp only [List.flatMap_cons, List.flatMap_append, Item.rendered, hnil, hrender,
        flatMap_rendered_single hnil, List.nil_append, List.singleton_append]

/-- If no name holds a mark, delimited tokens are replaced by the walk over the fields
between the marks.  No two of them start at one place, and the result is the same in
whatever order they are tried.  Where two tokens share a mark, the left one is an item of
the text and has it, unless the first mark of the left one is used up by a token before it.
Then the right one has it. -/
theorem render_eq_walk (table : List (String × String)) (text : String)
    (h : (table.map (·.1)).Nodup) (hm : Unmarked (table.map (·.1))) :
    render true table text = .ofList (walk table (fields '#' text.toList)) ∧
    (∀ rest, ∀ n ∈ table.map (·.1), ∀ m ∈ table.map (·.1),
      token true n <+: rest → token true m <+: rest → n = m) ∧
    (∀ rs : List (Replacement Char), rs.Perm (replacements true table) →
      .ofList (replaceFrom rs 0 text.toList) = render true table text) ∧
    ∀ items, Cut (tokens true (table.map (·.1))) text.toList items →
      render true table text = .ofList (rendering (valueOf (replacements true table)) items) ∧
      ∀ n ∈ table.map (·.1), ∀ m ∈ table.map (·.1), ∀ pre post,
        text.toList = pre ++ '#' :: (n.toList ++ '#' :: (m.toList ++ '#' :: post)) →
        (StandsBehind items pre (token true n) ↔ ¬ MarkUsed (table.map (·.1)) items pre) ∧
        (StandsBehind items (pre ++ '#' :: n.toList) (token true m) ↔
          MarkUsed (table.map (·.1)) items pre) := by
  refine ⟨?_, fun rest n hn m hm' => token_unique (hm n hn) (hm m hm'), fun rs hp => ?_,
    fun items hc => ⟨render_of_cut true h hc, fun n hn m hm' pre post ht => ⟨?_, ?_⟩⟩⟩
  · cases hfields : fields '#' text.toList with
    | nil => exact absurd hfields (Text.fields_ne_nil _ _)
    | cons f fs =>
      have hfs : ∀ e ∈ f :: fs, '#' ∉ e := fun e he =>
        Text.not_mem_of_mem_fields (by rwa [hfields])
      obtain ⟨items, hcut, hrender⟩ :=
        exists_cut_walkFrom h hm fun e he => hfs e (List.mem_cons_of_mem f he)
      have hc := hcut.field (hfs f List.mem_cons_self)
      rw [← Text.eq_append_of_fields hfields] at hc
      rw [render_of_cut true h hc, rendering, List.flatMap_append, hrender,
        flatMap_rendered_single (valueOf_nil h), valueOf_nil h, List.append_nil, walk]
  · obtain ⟨items, hc⟩ := Cut.exists (tokens true (table.map (·.1))) text.toList
    have hn : (words rs).Nodup :=
      (hp.map _).nodup_iff.2 (words_replacements_nodup true h)
    have hwords : ∀ r ∈ rs, ∃ n ∈ table.map (·.1), r.word = token true n := by
      intro r hr
      obtain ⟨v, hv, rfl⟩ := List.mem_map.1 (hp.mem_iff.1 hr)
      exact ⟨v.1, List.mem_map_of_mem hv, rfl⟩
    have htakes : TakesLongest rs := takesLongest_of_unique fun rest r hr s hs hr' hs' => by
      obtain ⟨n, hn, hrn⟩ := hwords r hr
      obtain ⟨m, hm', hsm⟩ := hwords s hs
      rw [hrn] at hr' ⊢
      rw [hsm] at hs' ⊢
      rw [token_unique (hm n hn) (hm m hm') hr' hs']
    have hcut : Cut (words rs) text.toList items := hc.congr fun w => by
      rw [← words_replacements]
      exact ((hp.map _).mem_iff).symm
    rw [replaceFrom_of_cut htakes hn hcut, render_of_cut true h hc, valueOf_perm hp hn]
  · exact hc.left_iff hm hn (by simpa [token_true] using ht)
  · exact hc.right_iff hm hn hm' (by simpa [token_true] using ht)

/-- Marks that are shared, a run of marks, a field that is no name, and the empty name. -/
theorem render_eq_walk_sharedMarks :
    ([("A", "x"), ("B", "#A#"), ("", "-")].map Prod.fst).Nodup ∧
    Unmarked ["A", "B", ""] ∧
    render true [("A", "x"), ("B", "#A#"), ("", "-")] "#A#B###C#B#A" =
      .ofList (walk [("A", "x"), ("B", "#A#"), ("", "-")] (fields '#' "#A#B###C#B#A".toList)) ∧
    walk [("A", "x"), ("B", "#A#"), ("", "-")] (fields '#' "#A#B###C#B#A".toList) =
      "xB-#C#A#A".toList := by
  have hm : Unmarked ["A", "B", ""] := by
    unfold Unmarked
    decide +kernel
  exact ⟨by decide, hm,
    (render_eq_walk [("A", "x"), ("B", "#A#"), ("", "-")] "#A#B###C#B#A" (by decide) hm).1,
    by decide +kernel⟩

/-- Three tokens in a row, each of which shares a mark with the next.  The mark that the last two
share does not belong to the left one of them. -/
theorem render_threeInARow :
    Unmarked ["A", "B", "C"] ∧
    "#A#B#C#".toList = "#A".toList ++ (token true "B" ++ "C#".toList) ∧
    "#A#B#C#".toList = "#A#B".toList ++ token true "C" ∧
    (∃ items, Cut (tokens true ["A", "B", "C"]) "#A#B#C#".toList items ∧
      ¬ StandsBehind items "#A".toList (token true "B") ∧
      StandsBehind items "#A#B".toList (token true "C")) ∧
    render true [("A", "x"), ("B", "y"), ("C", "z")] "#A#B#C#" = "xBz" := by
  have hm : Unmarked ["A", "B", "C"] := by
    unfold Unmarked
    decide +kernel
  have hcut : Cut (tokens true ["A", "B", "C"]) (token true "A" ++ 'B' :: (token true "C" ++ []))
      [.word (token true "A"), .single 'B', .word (token true "C")] :=
    .word (longest_token hm (by decide) _)
      (.single (noneStarts_of_ne (by decide) _) (.word (longest_token hm (by decide) _) .nil))
  have hused : MarkUsed ["A", "B", "C"]
      [.word (token true "A"), .single 'B', .word (token true "C")] "#A".toList :=
    ⟨"A", by decide, [], ⟨[], _, rfl, rfl⟩, by decide +kernel⟩
  exact ⟨hm, by decide +kernel, by decide +kernel,
    ⟨_, hcut, hused.not_stands "B", [.word (token true "A"), .single 'B'], [], rfl,
      by decide +kernel⟩, by decide +kernel⟩

end Table

end ModBuild.Template
