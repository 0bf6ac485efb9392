import ModBuild.Proofs.Files.Paved

/-!
# Resolved paths

A path that is resolved starts at the top and has no double dots, so in a sound
world it leads to its own names (`World.Sound.locate_eq`).  A file at such a path can be
copied to any path that leads somewhere (`Action.copyFile_cases`).
-/

namespace ModBuild

/-- A world with files that can be on a disk and a working directory that is
there. -/
structure World.Sound (w : World) : Prop where
  /-- The files can be on a disk. -/
  files : w.files.WellFormed
  /-- The working directory is there. -/
  here : w.files.node? w.here = some .directory

theorem World.Sound.rooted {w : World} (h : w.Sound) : w.Rooted :=
  ⟨fun _ hq => h.files.directoriesTo hq, h.here⟩

theorem withoutDots_not_mem {before : Location} {names : List String} (h : ".." ∉ before) :
    ".." ∉ withoutDots before names := by
  induction names generalizing before with
  | nil => exact h
  | cons s ss ih =>
    rw [withoutDots]
    split
    · exact ih fun hm => h ((List.dropLast_sublist _).subset hm)
    · next hs =>
      refine ih fun hm => ?_
      rcases List.mem_append.1 hm with hm | hm
      · exact h hm
      · exact hs (List.mem_singleton.1 hm).symm

theorem World.Sound.isResolved {w : World} (h : w.Sound) {p p' : Path}
    (hp : w.resolve p = .ok p') : p'.IsResolved := by
  have hstart : ".." ∉ w.start p := by
    unfold World.start
    cases p.root with
    | relative => exact h.files.not_mem_dots h.here
    | slash => exact List.not_mem_nil
    | doubleSlash => exact List.not_mem_nil
  rw [World.resolve] at hp
  split at hp
  · cases hp
  · cases hp
    exact Path.isResolved_ofLocation (withoutDots_not_mem hstart)

/-- What is on a disk has no character U+0000 in its path. -/
theorem FileTree.WellFormed.hasNull_eq_false {t : FileTree} (h : t.WellFormed) {p : Path}
    {n : Node} (hp : t.node? p.segments = some n) : p.hasNull = false := by
  rw [Path.hasNull, List.any_eq_false]
  intro s hs
  have hname := h.isName_of_node? hp s hs
  simpa using hname.2.2.2.2

/-- A resolved path to something that is there leads to it. -/
theorem World.Sound.locate_eq {w : World} (h : w.Sound) {p : Path} (hp : p.IsResolved) {n : Node}
    (hn : w.files.node? p.segments = some n) : w.locate p = .ok p.segments :=
  (locate_eq_ok_iff hp).2
    ⟨h.files.hasNull_eq_false hn, rfl, h.files.directoriesTo (by rw [hn]; rfl)⟩

/-! ## Files at resolved paths -/

/-- A resolved path leads to a file with some octets. -/
structure World.Holds (w : World) (p : Path) (octets : List UInt8) : Prop where
  /-- The path is resolved. -/
  isResolved : p.IsResolved
  /-- It leads to its own names. -/
  locate : w.locate p = .ok p.segments
  /-- The file is there. -/
  file : w.files.node? p.segments = some (.file octets)

/-- A file stays where directories are made. -/
theorem World.Holds.paved {w v : World} {p q : Path} {octets : List UInt8}
    (h : w.Holds p octets) (hpaved : w.Paved q v) : v.Holds p octets :=
  ⟨h.isResolved, World.locate_mono hpaved.stage (fun _ => hpaved.node?_eq) h.locate,
    hpaved.node?_eq h.file⟩

/-- A file is copied to the end of a path, or nothing happens. -/
theorem Action.copyFile_cases {w : World} {source : Path} {octets : List UInt8}
    (h : w.Holds source octets) (p : Path) :
    (∃ f, (copyFile source p).runIn w = (.error f, w)) ∨
      ∃ l, w.locate p = .ok l ∧ w.files.node? l ≠ some .directory ∧
        (copyFile source p).runIn w = (.ok (), { w with files := w.files.set l (.file octets) }) := by
  rw [copyFile, runIn_bind_ok (runIn_get w)]
  split
  · exact Or.inl ⟨_, rfl⟩
  · split
    · exact Or.inl ⟨_, rfl⟩
    · rw [runIn_bind_ok (readFile_of_file h.locate h.file)]
      rcases writeFile_cases p octets w with ⟨f, hf⟩ | ⟨l, hl, hn, hr⟩
      · exact Or.inl ⟨f, runIn_bind_error hf⟩
      · exact Or.inr ⟨l, hl, hn, runIn_bind_ok hr⟩

end ModBuild
