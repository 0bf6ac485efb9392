import ModBuild.Files.Temporary
import ModBuild.Proofs.Files.Access

/-!
# Temporary directories leave no trace

The name of a temporary directory is fresh, so nothing is at its location or below
it.  What is done in the directory changes files there only, which is said by what
is left without the location.  Thus its removal brings the files back that were
there before, and the whole is tidy (`withTemporary_tidy`).  What comes of the action
is told by what it does in the directory and by whether the directory can be removed
(`runIn_withTemporary`).
-/

namespace ModBuild

/-! ## Changes below a location -/

namespace FileTree

variable {l : Location}

theorem set_remove (t : FileTree) {q : Location} (h : l <+: q) (n : Node) :
    (t.set q n).remove l = t.remove l := by
  have hb : l.isPrefixOf q = true := List.isPrefixOf_iff_prefix.2 h
  have hes : ∀ es : List (Location × Node),
      (Document.Entries.set q n es).filter (fun e => !l.isPrefixOf e.1) =
        es.filter fun e => !l.isPrefixOf e.1 := by
    intro es
    induction es with
    | nil => simp [Document.Entries.set, hb]
    | cons e es ih =>
      rw [Document.Entries.set]
      split
      · next he =>
        subst he
        simp [hb]
      · rw [List.filter_cons, List.filter_cons, ih]
  exact congrArg FileTree.mk (hes t.entries)

theorem remove_remove (t : FileTree) {q : Location} (h : l <+: q) :
    (t.remove q).remove l = t.remove l := by
  refine congrArg FileTree.mk ?_
  rw [remove, List.filter_filter]
  refine List.filter_congr fun e _ => ?_
  by_cases hq : q <+: e.1
  · simp [List.isPrefixOf_iff_prefix.2 hq, List.isPrefixOf_iff_prefix.2 (h.trans hq)]
  · have hb : q.isPrefixOf e.1 = false := by
      rw [← Bool.not_eq_true, List.isPrefixOf_iff_prefix]
      exact hq
    rw [hb, Bool.not_false, Bool.and_true]

theorem addDirectories_remove {ls : List Location} (h : ∀ q ∈ ls, l <+: q) (t : FileTree) :
    (t.addDirectories ls).remove l = t.remove l := by
  induction ls generalizing t with
  | nil => rfl
  | cons q ls ih =>
    have hq : l <+: q := h q List.mem_cons_self
    change (addDirectories _ ls).remove l = t.remove l
    rw [ih fun r hr => h r (List.mem_cons_of_mem q hr)]
    dsimp only
    split
    · rfl
    · exact set_remove t hq .directory

theorem prefix_of_mem_ancestors {names : List String} {base q : Location}
    (h : q ∈ ancestors base names) : base <+: q := by
  induction names generalizing base with
  | nil => cases h
  | cons s ss ih =>
    cases ss with
    | nil => cases h
    | cons s' ss =>
      have hbase : base <+: base ++ [s] := List.prefix_append _ _
      rcases List.mem_cons.1 h with rfl | h
      · exact hbase
      · exact hbase.trans (ih h)

/-- What is planted at or below a location, with what it lies in, changes nothing elsewhere. -/
theorem plant_remove_of_prefix (t : FileTree) {m : Location} {names : List String}
    (hancestors : ∀ q ∈ ancestors m names, l <+: q) (hend : l <+: m ++ names) (n : Node) :
    (t.plant m names n).remove l = t.remove l := by
  have hup : (t.addDirectories (ancestors m names)).remove l = t.remove l :=
    addDirectories_remove hancestors t
  cases n with
  | file o => exact (set_remove _ hend _).trans hup
  | directory =>
    refine (addDirectories_remove (fun q hq => ?_) _).trans hup
    rw [List.mem_singleton.1 hq]
    exact hend

theorem plant_remove (t : FileTree) (names : List String) (n : Node) :
    (t.plant l names n).remove l = t.remove l :=
  plant_remove_of_prefix t (fun _ => prefix_of_mem_ancestors) (List.prefix_append _ _) n

theorem foldl_plant_remove (written : List (List String × Node)) (t : FileTree) :
    (written.foldl (fun files e => files.plant l e.1 e.2) t).remove l = t.remove l := by
  induction written generalizing t with
  | nil => rfl
  | cons e es ih => rw [List.foldl_cons, ih, plant_remove]

theorem foldl_remove_remove (names : List String) (t : FileTree) :
    (names.foldl (fun files name => files.remove (l ++ [name])) t).remove l = t.remove l := by
  induction names generalizing t with
  | nil => rfl
  | cons s ss ih => rw [List.foldl_cons, ih, remove_remove _ (List.prefix_append _ _)]

/-- What is not at a location or below it does not depend on what is. -/
theorem node?_eq_of_remove_eq {t t' : FileTree} (h : t'.remove l = t) {q : Location}
    (hq : ¬ l <+: q) : t'.node? q = t.node? q := by
  by_cases hnil : q = []
  · rw [hnil, node?_nil, node?_nil]
  · rw [← h, node?_remove t' l q hnil, if_neg hq]

theorem directoriesTo_of_remove_eq {t t' : FileTree} (h : t'.remove l = t)
    (hl : t.DirectoriesTo l) : t'.DirectoriesTo l := by
  intro q hq hne
  have hnot : ¬ l <+: q := fun h' => hne (hq.eq_of_length_le h'.length_le)
  rw [node?_eq_of_remove_eq h hnot]
  exact hl q hq hne

end FileTree

/-! ## Fresh names -/

theorem le_foldl_length (taken : List String) (n : Nat) :
    n ≤ taken.foldl (fun n s => max n s.length) n ∧
      ∀ s ∈ taken, s.length ≤ taken.foldl (fun n s => max n s.length) n := by
  induction taken generalizing n with
  | nil => exact ⟨Nat.le_refl n, fun _ h => by cases h⟩
  | cons t ts ih =>
    obtain ⟨hn, hs⟩ := ih (max n t.length)
    refine ⟨Nat.le_trans (Nat.le_max_left _ _) hn, fun s h => ?_⟩
    rcases List.mem_cons.1 h with rfl | h
    · exact Nat.le_trans (Nat.le_max_right _ _) hn
    · exact hs s h

theorem length_freshName (taken : List String) :
    (freshName taken).length =
      temporaryStart.length + (taken.foldl (fun n s => max n s.length) 0 + 1) := by
  rw [freshName, String.length_ofList, List.length_append, List.length_replicate,
    String.length_toList]

theorem freshName_not_mem (taken : List String) : freshName taken ∉ taken := by
  intro h
  have hle := (le_foldl_length taken 0).2 _ h
  rw [length_freshName] at hle
  omega

theorem freshName_ne_dots (taken : List String) : freshName taken ≠ ".." := by
  intro h
  have hlength := length_freshName taken
  have hstart : "..".length < temporaryStart.length := by decide
  rw [h] at hlength
  omega

theorem freshName_no_null (taken : List String) : '\x00' ∉ (freshName taken).toList := by
  rw [freshName, String.toList_ofList, List.mem_append, List.mem_replicate, not_or]
  exact ⟨by decide, fun h => absurd h.2 (by decide)⟩

/-- Nothing is at a fresh location or below it. -/
theorem FileTree.remove_fresh {t : FileTree} (h : t.WellFormed) (d : Location) :
    t.remove (d ++ [freshName (t.names d)]) = t := by
  refine congrArg FileTree.mk (List.filter_eq_self.2 fun e he => ?_)
  rw [Bool.not_eq_true', ← Bool.not_eq_true, List.isPrefixOf_iff_prefix]
  intro hp
  have hne : e.1 ≠ [] := by
    rintro hnil
    rw [hnil] at hp
    simpa using List.prefix_nil.1 hp
  have hnode : t.node? e.1 = some e.2 := by
    rw [node?, if_neg hne]
    exact Document.Entries.get?_of_mem h.nodup he
  obtain ⟨n, hn⟩ : ∃ n, t.node? (d ++ [freshName (t.names d)]) = some n := by
    by_cases heq : d ++ [freshName (t.names d)] = e.1
    · exact ⟨e.2, by rw [heq, hnode]⟩
    · exact ⟨_, h.directoriesTo (by rw [hnode]; rfl) _ hp heq⟩
  refine freshName_not_mem (t.names d) (List.mem_filterMap.2 ?_)
  exact ⟨_, mem_entries_of_node? (by simp) hn, by simp⟩

/-! ## The directory of one action -/

namespace World

/-- The location of the next temporary directory. -/
def nextTemporary (w : World) : Location :=
  w.tempRoot ++ [freshName (w.files.names w.tempRoot)]

/-- A temporary directory can be made. -/
def MakesTemporary (w : World) : Prop :=
  w.makeTempFault = none ∧ w.files.node? w.tempRoot = some .directory

/-- The world in which a temporary directory was made. -/
def withNextTemporary (w : World) : World :=
  { w with files := w.files.set w.nextTemporary .directory }

/-- A temporary directory is new, and a path of names leads to it. -/
theorem MakesTemporary.next {w : World} (h : w.MakesTemporary) (hw : w.files.WellFormed) :
    w.files.DirectoriesTo w.nextTemporary ∧ ".." ∉ w.nextTemporary ∧
      w.withNextTemporary.files.remove w.nextTemporary = w.files := by
  refine ⟨fun q hq hne => ?_, ?_, ?_⟩
  · have hq := FileTree.prefix_append_singleton hq hne
    by_cases he : q = w.tempRoot
    · rw [he, h.2]
    · exact hw.directoriesTo (by rw [h.2]; rfl) q hq he
  · rw [nextTemporary, List.mem_append, List.mem_singleton]
    intro hx
    rcases hx with hmem | hmem
    · exact hw.not_mem_dots h.2 hmem
    · exact freshName_ne_dots _ hmem.symm
  · rw [withNextTemporary, FileTree.set_remove _ (List.prefix_refl _)]
    exact FileTree.remove_fresh hw _

theorem nextTemporary_fresh {w : World} (hw : w.files.WellFormed) :
    w.files.node? w.nextTemporary = none := by
  have hne : w.nextTemporary ≠ [] := List.append_ne_nil_of_right_ne_nil _ (by simp)
  rw [← FileTree.remove_fresh hw w.tempRoot, FileTree.node?_remove _ _ _ hne]
  exact if_pos (List.prefix_refl _)

theorem MakesTemporary.locate_next {w : World} (h : w.MakesTemporary) (hw : w.files.WellFormed) :
    w.withNextTemporary.locate (.ofLocation w.nextTemporary) = .ok w.nextTemporary := by
  obtain ⟨hdirectories, hdots, hstart⟩ := h.next hw
  rw [locate_eq_ok_iff (Path.isResolved_ofLocation hdots), Path.hasNull, List.any_eq_false]
  refine ⟨fun s hs => ?_, rfl, FileTree.directoriesTo_of_remove_eq hstart hdirectories⟩
  rcases List.mem_append.1 hs with hs | hs
  · simpa using (hw.isName_of_node? h.2 s hs).2.2.2.2
  · simpa [List.mem_singleton.1 hs] using freshName_no_null _

end World

namespace Action

variable {α : Type} {w w' : World}

theorem runIn_makeTemporary (h : w.MakesTemporary) :
    makeTemporary.runIn w = (.ok w.nextTemporary, w.withNextTemporary) := by
  rw [makeTemporary, runIn_bind_ok (runIn_get w), h.1]
  dsimp only
  rw [h.2]
  rfl

/-- The file system says why no temporary directory is made. -/
theorem runIn_makeTemporary_of_not (h : ¬ w.MakesTemporary) :
    ∃ cause, makeTemporary.runIn w = (.error (.os cause), w) := by
  rw [makeTemporary, runIn_bind_ok (runIn_get w)]
  split
  · exact ⟨_, rfl⟩
  · next hmake =>
    dsimp only
    split
    · next hd => exact absurd ⟨hmake, hd⟩ h
    · exact ⟨_, rfl⟩
    · exact ⟨_, rfl⟩

/-- What comes of an action in a temporary directory when the directory is to be
removed. -/
def afterTemporary (logger : String) (l : Location) (r : Except Failure α × World) :
    Except Failure α × World :=
  match r.2.removeTempFault with
  | none => (r.1, { r.2 with files := r.2.files.remove l })
  | some message =>
    let failure := Failure.tempNotRemoved (.ofLocation l) (.os (.other message))
    match r.1 with
    | .ok _ => (.error failure, r.2)
    | .error f => (.error f, { r.2 with log := r.2.log ++ [⟨.warning, logger, failure.message⟩] })

theorem runIn_withTemporary (logger : String) (body : Path → Action α) (h : w.MakesTemporary) :
    (withTemporary logger body).runIn w = afterTemporary logger w.nextTemporary
      ((body (.ofLocation w.nextTemporary)).runIn w.withNextTemporary) := by
  rw [withTemporary, runIn_bind_ok (runIn_attempt _ w), runIn_makeTemporary h]
  dsimp only
  rw [runIn_bind_ok (runIn_attempt _ _)]
  generalize (body (.ofLocation w.nextTemporary)).runIn w.withNextTemporary = r
  obtain ⟨outcome, v⟩ := r
  rw [runIn_bind_ok (runIn_attempt _ _), removeTemporary, runIn_bind_ok (runIn_get v),
    afterTemporary]
  cases hremove : v.removeTempFault with
  | none => cases outcome <;> rfl
  | some message => cases outcome <;> rfl

theorem runIn_withTemporary_of_not (logger : String) (body : Path → Action α)
    (h : ¬ w.MakesTemporary) :
    ∃ cause, (withTemporary logger body).runIn w = (.error (.tempNotMade (.os cause)), w) := by
  obtain ⟨cause, hmake⟩ := runIn_makeTemporary_of_not h
  refine ⟨cause, ?_⟩
  rw [withTemporary, runIn_bind_ok (runIn_attempt _ w), hmake]
  rfl

/-- A temporary directory changes the files and the log only. -/
theorem withTemporary_ignores {I : World → Prop} (hfiles : Preserves.IgnoresFiles I)
    (hlog : Preserves.IgnoresLog I) {logger : String} {body : Path → Action α}
    (hbody : ∀ p, Preserves I (body p)) : Preserves I (withTemporary logger body) := by
  intro w hw
  by_cases hmake : w.MakesTemporary
  · have hend := hbody (.ofLocation w.nextTemporary) w.withNextTemporary (hfiles w _ hw)
    rw [runIn_withTemporary logger body hmake, afterTemporary]
    generalize (body (.ofLocation w.nextTemporary)).runIn w.withNextTemporary = after at hend ⊢
    obtain ⟨outcome, v⟩ := after
    split
    · exact hfiles v _ hend
    · cases outcome with
      | ok x => exact hend
      | error f => exact hlog v _ hend
  · obtain ⟨cause, he⟩ := runIn_withTemporary_of_not logger body hmake
    rw [he]
    exact hw

/-! ## Tidy actions -/

/-- The files and the stage are after a run as they were before, if it gives a value or
temporary directories can be removed. -/
def Tidy (a : Action α) : Prop :=
  ∀ w, w.files.WellFormed → (∃ x, (a.runIn w).1 = .ok x) ∨ w.removeTempFault = none →
    (a.runIn w).2.files = w.files ∧ (a.runIn w).2.stage = w.stage

namespace Tidy

variable {β : Type}

theorem of_ok {a : Action α} (ha : Tidy a) (hw : w.files.WellFormed) {x : α}
    (h : a.runIn w = (.ok x, w')) : w'.files = w.files ∧ w'.stage = w.stage := by
  simpa [h] using ha w hw (Or.inl ⟨x, by rw [h]⟩)

theorem of_removable {a : Action α} (ha : Tidy a) (hw : w.files.WellFormed)
    (hremove : w.removeTempFault = none) {r : Except Failure α} (h : a.runIn w = (r, w')) :
    w'.files = w.files ∧ w'.stage = w.stage := by
  simpa [h] using ha w hw (Or.inr hremove)

/-- An action that changes no files is tidy. -/
theorem of_preserves {a : Action α}
    (h : ∀ P : FileTree → World.Stage → Prop, Preserves (fun w => P w.files w.stage) a) :
    Tidy a :=
  fun w _ _ => h (fun files stage => files = w.files ∧ stage = w.stage) w ⟨rfl, rfl⟩

theorem bind {a : Action α} {f : α → Action β} (ha : Tidy a) (hf : ∀ x, Tidy (f x)) :
    Tidy (a >>= f) := by
  intro w hw hr
  rw [runIn_bind] at hr ⊢
  rcases hrun : a.runIn w with ⟨e | x, w₁⟩
  · rw [hrun] at hr
    rcases hr with ⟨x, hx⟩ | hr
    · cases hx
    · exact ha.of_removable hw hr hrun
  · rw [hrun] at hr
    obtain ⟨hfiles, hstage⟩ := ha.of_ok hw hrun
    have hremove : w₁.removeTempFault = w.removeTempFault :=
      congrArg World.Stage.removeTempFault hstage
    obtain ⟨hfiles', hstage'⟩ := hf x w₁ (hfiles ▸ hw) (hr.imp_right hremove.trans)
    exact ⟨hfiles'.trans hfiles, hstage'.trans hstage⟩

end Tidy

/-- What is done in a temporary directory, and changes files only there, is tidy. -/
theorem withTemporary_tidy {logger : String} {body : Path → Action α}
    (hbody : ∀ (t : FileTree) (stage : World.Stage) (l : Location), t.DirectoriesTo l → ".." ∉ l →
      Preserves (fun w => w.files.remove l = t ∧ w.stage = stage) (body (.ofLocation l))) :
    Tidy (withTemporary logger body) := by
  intro w hw hr
  by_cases hmake : w.MakesTemporary
  · obtain ⟨hdirectories, hdots, hstart⟩ := hmake.next hw
    have hend := hbody w.files w.stage _ hdirectories hdots _ ⟨hstart, rfl⟩
    rw [runIn_withTemporary logger body hmake, afterTemporary] at hr ⊢
    generalize (body (.ofLocation w.nextTemporary)).runIn w.withNextTemporary = after at hr hend
    obtain ⟨outcome, v⟩ := after
    split
    · exact hend
    · next message hremove =>
      have hsome : w.removeTempFault = some message :=
        (congrArg World.Stage.removeTempFault hend.2).symm.trans hremove
      rcases hr with ⟨x, hx⟩ | hnone
      · dsimp only at hremove hx
        rw [hremove] at hx
        cases outcome <;> cases hx
      · rw [hsome] at hnone
        cases hnone
  · obtain ⟨cause, he⟩ := runIn_withTemporary_of_not logger body hmake
    rw [he]
    exact ⟨rfl, rfl⟩

end Action

end ModBuild
