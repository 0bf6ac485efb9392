import ModBuild.Files.Access
import ModBuild.Proofs.Files.Tree
import ModBuild.Proofs.World.Run

/-!
# What access to files changes

Looking at files changes nothing.  A write that fails changes nothing, and one
that does not sets a single location (`writeFile_cases`, `makeDirectory_cases`).
Making a directory with all that it lies in can fail half-way, so what it preserves is
what every directory on the way preserves (`ensureDirectories_preserves`).
-/

namespace ModBuild

/-! ## Resolved paths -/

/-- A path from the top without double dots. -/
def Path.IsResolved (p : Path) : Prop :=
  p.root ≠ .relative ∧ ".." ∉ p.segments

theorem Path.isResolved_ofLocation {l : Location} (h : ".." ∉ l) : (ofLocation l).IsResolved :=
  ⟨by simp [ofLocation], h⟩

theorem Path.IsResolved.initial {p : Path} (hp : p.IsResolved) {q : List String}
    (hq : q <+: p.segments) : Path.IsResolved ⟨p.root, q⟩ :=
  ⟨hp.1, fun h => hp.2 (hq.subset h)⟩

namespace World

theorem locate_eq_ok_iff_walk {w : World} {p : Path} {l : Location} :
    w.locate p = .ok l ↔
      p.hasNull = false ∧ w.files.walk (w.start p) p.segments = .ok l := by
  rw [locate]
  cases p.hasNull with
  | true => simp
  | false =>
    cases w.files.walk (w.start p) p.segments with
    | ok m => simp
    | error e => cases e <;> simp

/-- A path without double dots leads to its own names, if the directories on the way are
there. -/
theorem locate_straight_iff {w : World} {p : Path} {l : Location} (hp : ".." ∉ p.segments) :
    w.locate p = .ok l ↔ p.hasNull = false ∧ l = w.start p ++ p.segments ∧
      ∀ q, q <+: p.segments → q ≠ p.segments →
        w.files.node? (w.start p ++ q) = some .directory := by
  rw [locate_eq_ok_iff_walk, FileTree.walk_eq_ok_iff hp]

/-- A path that is not relative starts at the top. -/
theorem start_eq_nil {p : Path} (h : p.root ≠ .relative) (w : World) : w.start p = [] := by
  unfold start
  split
  · next he => exact absurd he h
  · rfl

theorem locate_eq_ok_iff {w : World} {p : Path} {l : Location} (hp : p.IsResolved) :
    w.locate p = .ok l ↔
      p.hasNull = false ∧ l = p.segments ∧ w.files.DirectoriesTo p.segments := by
  rw [locate_straight_iff hp.2, start_eq_nil hp.1]
  simp [FileTree.DirectoriesTo]

/-- A path leads on from where its parent leads to, which is a directory. -/
theorem locate_append_singleton_iff {w : World} {root : Root} {names : List String} {s : String}
    {l : Location} :
    w.locate ⟨root, names ++ [s]⟩ = .ok l ↔ '\x00' ∉ s.toList ∧
      ∃ m, w.locate ⟨root, names⟩ = .ok m ∧ w.files.node? m = some .directory ∧
        l = if s = ".." then m.dropLast else m ++ [s] := by
  have hnull : Path.hasNull ⟨root, names ++ [s]⟩ = false ↔
      '\x00' ∉ s.toList ∧ Path.hasNull ⟨root, names⟩ = false := by
    simp [Path.hasNull, and_comm]
  simp only [locate_eq_ok_iff_walk]
  rw [hnull, FileTree.walk_append_singleton_iff]
  constructor
  · rintro ⟨⟨hs, hnames⟩, m, hwalk, hm⟩
    exact ⟨hs, m, ⟨hnames, hwalk⟩, hm⟩
  · rintro ⟨hs, m, ⟨hnames, hwalk⟩, hm⟩
    exact ⟨⟨hs, hnames⟩, m, hwalk, hm⟩

/-- What reading the file at the end of a path gives. -/
def contents (w : World) (p : Path) : Except Failure (List UInt8) :=
  match w.locate p with
  | .error f => .error f
  | .ok l =>
    match w.files.node? l with
    | some (.file octets) => .ok octets
    | some .directory => .error (.os (.isDirectory p))
    | none => .error (.os (.notFound p))

theorem contents_eq_ok_iff {w : World} {p : Path} {octets : List UInt8} :
    w.contents p = .ok octets ↔
      ∃ l, w.locate p = .ok l ∧ w.files.node? l = some (.file octets) := by
  rw [contents]
  cases w.locate p with
  | error f => simp
  | ok l =>
    dsimp only
    cases hn : w.files.node? l with
    | none => simp [hn]
    | some n => cases n <;> simp [hn]

theorem isFile_iff {w : World} {p : Path} :
    w.isFile p = true ↔ ∃ octets, w.node? p = some (.file octets) := by
  rw [isFile]
  cases w.node? p with
  | none => simp
  | some n => cases n <;> simp

end World

namespace Action

/-! ## Reading -/

@[simp] theorem runIn_locate (p : Path) (w : World) : (locate p).runIn w = (w.locate p, w) := by
  rw [locate, runIn_bind]
  simp

theorem locate_preserves (I : World → Prop) (p : Path) : Preserves I (locate p) := by
  intro w h
  rw [runIn_locate]
  exact h

/-- What comes behind the location of a resolved path knows this location. -/
theorem Preserves.locate_bind {β : Type} {I : World → Prop} {p : Path} (hp : p.IsResolved)
    {f : Location → Action β} (hf : ∀ w, I w → I ((f p.segments).runIn w).2) :
    Preserves I (locate p >>= f) := by
  intro w hw
  rw [runIn_bind, runIn_locate]
  cases hl : w.locate p with
  | ok l =>
    obtain ⟨-, rfl, -⟩ := (World.locate_eq_ok_iff hp).1 hl
    exact hf w hw
  | error e => exact hw

theorem runIn_readFile (p : Path) (w : World) : (readFile p).runIn w = (w.contents p, w) := by
  rw [readFile, runIn_bind, runIn_locate, World.contents]
  cases w.locate p with
  | error f => rfl
  | ok l =>
    dsimp only
    rw [runIn_bind, runIn_get]
    dsimp only
    cases w.files.node? l with
    | none => rfl
    | some n => cases n <;> rfl

theorem readFile_preserves (I : World → Prop) (p : Path) : Preserves I (readFile p) := by
  intro w h
  rw [runIn_readFile]
  exact h

theorem readFile_of_file {p : Path} {w : World} {l : Location} {o : List UInt8}
    (hl : w.locate p = .ok l) (ho : w.files.node? l = some (.file o)) :
    (readFile p).runIn w = (.ok o, w) := by
  rw [runIn_readFile, World.contents_eq_ok_iff.2 ⟨l, hl, ho⟩]

/-! ## Writing -/

/-- A file is written at the end of a path, or nothing happens. -/
theorem writeFile_cases (p : Path) (o : List UInt8) (w : World) :
    (∃ f, (writeFile p o).runIn w = (.error f, w)) ∨
      ∃ l, w.locate p = .ok l ∧ w.files.node? l ≠ some .directory ∧
        (writeFile p o).runIn w = (.ok l, { w with files := w.files.set l (.file o) }) := by
  rw [writeFile, runIn_bind, runIn_locate]
  cases w.locate p with
  | error f => exact Or.inl ⟨f, rfl⟩
  | ok l =>
    dsimp only
    rw [runIn_bind, runIn_get]
    dsimp only
    split
    · exact Or.inl ⟨_, rfl⟩
    · next hn => exact Or.inr ⟨l, rfl, hn, rfl⟩

theorem runIn_removeFile {p : Path} {w : World} {l : Location} {o : List UInt8}
    (hl : w.locate p = .ok l) (ho : w.files.node? l = some (.file o)) :
    (removeFile p).runIn w = (.ok (), { w with files := w.files.remove l }) := by
  rw [removeFile, runIn_bind, runIn_locate, hl]
  dsimp only
  rw [runIn_bind_ok (runIn_get w), ho]
  rfl

/-- A directory is made at the end of a path, or nothing happens. -/
theorem makeDirectory_cases (p : Path) (w : World) :
    (∃ f, (makeDirectory p).runIn w = (.error f, w)) ∨
      ∃ l, w.locate p = .ok l ∧ w.files.node? l = none ∧
        (makeDirectory p).runIn w = (.ok (), { w with files := w.files.set l .directory }) := by
  rw [makeDirectory, runIn_bind, runIn_locate]
  cases w.locate p with
  | error f => exact Or.inl ⟨f, rfl⟩
  | ok l =>
    dsimp only
    rw [runIn_bind, runIn_get]
    dsimp only
    split
    · exact Or.inl ⟨_, rfl⟩
    · next hn => exact Or.inr ⟨l, rfl, hn, rfl⟩

/-! ## Making directories -/

section Run

variable {p : Path} {w w' : World}

/-- A path whose parent is there is all that is made. -/
theorem runIn_ensureDirectories (p : Path) {outcome : Except Failure Unit}
    (h : (makeDirectory p).runIn w = (outcome, w'))
    (hfound : ∀ q, outcome ≠ .error (.os (.notFound q))) :
    (ensureDirectories p).runIn w = (ensureDirectory p).runIn w := by
  obtain ⟨root, names⟩ := p
  obtain ⟨reversed, rfl⟩ : ∃ reversed : List String, names = reversed.reverse :=
    ⟨names.reverse, names.reverse_reverse.symm⟩
  rw [ensureDirectories, List.reverse_reverse]
  cases reversed with
  | nil => rfl
  | cons s ss =>
    rw [ensureDirectoriesFrom, ensureDirectory, runIn_bind_ok (runIn_attempt _ w),
      runIn_bind_ok (runIn_attempt _ w), h]
    cases outcome with
    | ok _ => rfl
    | error f =>
      cases f with
      | os cause =>
        cases cause with
        | notFound q => exact absurd rfl (hfound q)
        | _ => rfl
      | _ => rfl

/-- A directory that is there is not made. -/
theorem runIn_ensureDirectories_of_directory (h : w.isDirectory p = true) :
    (ensureDirectories p).runIn w = (.ok (), w) := by
  have hmake : (makeDirectory p).runIn w = (.error (.os (.exists p)), w) := by
    rw [World.isDirectory, beq_iff_eq, World.node?] at h
    split at h
    · next l hl =>
      rw [makeDirectory, runIn_bind, runIn_locate, hl]
      dsimp only
      rw [runIn_bind_ok (runIn_get w), h]
      rfl
    · cases h
  rw [runIn_ensureDirectories p hmake (by nofun), ensureDirectory,
    runIn_bind_ok (runIn_attempt _ w), hmake]
  dsimp only
  rw [runIn_bind_ok (runIn_get w), if_pos h]
  rfl

end Run

section Preserves

variable {I : World → Prop}

theorem isDirectory_or_throw_preserves (I : World → Prop) (p : Path) (f : Failure) :
    Preserves I (do if (← get).isDirectory p then return () else throw f : Action Unit) := by
  refine Preserves.get_bind fun w hw => ?_
  split <;> exact hw

theorem ensureDirectory_preserves {p : Path} (h : Preserves I (makeDirectory p)) :
    Preserves I (ensureDirectory p) := by
  refine Preserves.bind h.attempt fun outcome => ?_
  split
  · exact Preserves.pure ()
  · exact isDirectory_or_throw_preserves _ p _
  · exact Preserves.throw _

/-- What no directory on the way changes, all of them together do not change.  The
names come the last first, so the induction goes up to the top. -/
theorem ensureDirectoriesFrom_preserves {root : Root} {names : List String}
    (h : ∀ q, q <+: names.reverse → Preserves I (makeDirectory ⟨root, q⟩)) :
    Preserves I (ensureDirectoriesFrom root names) := by
  induction names with
  | nil => exact ensureDirectory_preserves (h [] List.nil_prefix)
  | cons s ss ih =>
    have hlast := h _ (List.prefix_refl _)
    have hss : ss.reverse <+: (s :: ss).reverse := by
      rw [List.reverse_cons]
      exact List.prefix_append _ _
    refine Preserves.bind hlast.attempt fun outcome => ?_
    split
    · exact Preserves.pure ()
    · exact Preserves.bind (ih fun q hq => h q (hq.trans hss)) fun _ =>
        ensureDirectory_preserves hlast
    · exact isDirectory_or_throw_preserves _ _ _
    · exact Preserves.throw _

theorem ensureDirectories_preserves {p : Path}
    (h : ∀ q, q <+: p.segments → Preserves I (makeDirectory ⟨p.root, q⟩)) :
    Preserves I (ensureDirectories p) := by
  refine ensureDirectoriesFrom_preserves fun q hq => h q ?_
  rwa [List.reverse_reverse] at hq

theorem ensureDirectories_ignores (h : Preserves.IgnoresFiles I) (p : Path) :
    Preserves I (ensureDirectories p) := by
  refine ensureDirectories_preserves fun q _ w hw => ?_
  rcases makeDirectory_cases ⟨p.root, q⟩ w with ⟨f, hr⟩ | ⟨l, -, -, hr⟩
  · rw [hr]
    exact hw
  · rw [hr]
    exact h w _ hw

theorem writeFile_ignores (h : Preserves.IgnoresFiles I) (p : Path) (o : List UInt8) :
    Preserves I (writeFile p o) := by
  intro w hw
  rcases writeFile_cases p o w with ⟨f, hr⟩ | ⟨l, -, -, hr⟩
  · rw [hr]
    exact hw
  · rw [hr]
    exact h w _ hw

theorem append_ignores (h : Preserves.IgnoresFiles I) (l : Location) (o : List UInt8) :
    Preserves I (append l o) := by
  refine .get_bind fun w hw => ?_
  dsimp only
  split
  · exact Preserves.setFiles h _ w hw
  · exact hw

theorem removeFile_ignores (h : Preserves.IgnoresFiles I) (p : Path) :
    Preserves I (removeFile p) := by
  refine (locate_preserves I p).bind fun l => .get_bind fun w hw => ?_
  dsimp only
  split
  · exact Preserves.setFiles h _ w hw
  · exact hw
  · exact hw

theorem clear_ignores (h : Preserves.IgnoresFiles I) (p : Path) : Preserves I (clear p) := by
  refine .get_bind fun w hw => ?_
  split
  · exact hw
  · exact hw
  · refine Preserves.bind (locate_preserves I p) (fun l => ?_) w hw
    exact .get_bind fun v hv => Preserves.setFiles h _ v hv

end Preserves

end Action

end ModBuild
