import ModBuild.Proofs.Source.Session
import ModBuild.Proofs.Version.Resolve
import ModBuild.Proofs.World.Calls

/-!
# How long Git may take

A source control has a limit of time.  It starts one run of Git for each request, which is held to
the limit if it is a clone.  A question for a revision is held to a limit of its own, whatever that
of the source control is.  So the limit is kept in a session, and when the version is found, just
if no revision is asked for or the two limits are one (`limits_kept_iff`).
-/

namespace ModBuild.Git

open ModBuild.Action

/-! ## Requests -/

/-- Something that is asked of a source control. -/
inductive Request where
  | clone (url branch : String) (target : Path) (shallow : Bool)
  | revision (tree : Path)

namespace Request

/-- The step of a session that a request is under a limit. -/
def operation (limit : Int) : Request → Operation
  | clone url branch target shallow => .controlClone limit url branch target shallow
  | revision tree => .controlRevision limit tree

/-- The run of Git that a request is under a limit. -/
def call (limit : Int) : Request → Call
  | clone url branch target shallow =>
    .git ("git" :: cloneArguments url branch target shallow) limit
  | revision tree =>
    .git ["git", "-C", tree.toString, "rev-parse", "--short", "HEAD"] revisionSeconds

/-- A request that asks for no revision. -/
def IsClone : Request → Prop
  | clone _ _ _ _ => True
  | revision _ => False

end Request

/-- All runs of Git among some calls are held to a limit. -/
def HeldTo (limit : Int) (calls : List Call) : Prop :=
  ∀ arguments seconds, .git arguments seconds ∈ calls → seconds = limit

theorem heldTo_requests_iff (limit : Int) (requests : List Request) :
    HeldTo limit (requests.map (Request.call limit)) ↔
      limit = revisionSeconds ∨ ∀ r ∈ requests, r.IsClone := by
  constructor
  · intro hheld
    by_cases hlimit : limit = revisionSeconds
    · exact Or.inl hlimit
    · refine Or.inr fun r hr => ?_
      cases r with
      | clone url branch target shallow => trivial
      | revision tree =>
        have hmem := List.mem_map_of_mem (f := Request.call limit) hr
        exact absurd (hheld _ _ hmem).symm hlimit
  · intro h arguments seconds hmem
    obtain ⟨r, hr, hcall⟩ := List.mem_map.1 hmem
    cases r with
    | clone url branch target shallow =>
      cases hcall
      rfl
    | revision tree =>
      cases hcall
      rcases h with hlimit | hclones
      · exact hlimit.symm
      · exact absurd (hclones _ hr) id

/-! ## The runs of Git in a session -/

theorem run_calls (arguments : List String) (seconds : Int) (target : Option Path) (w : World) :
    Calls (run arguments seconds target) w [.git ("git" :: arguments) seconds] := by
  -- The call is recorded before anything can fail, and nothing behind it is one.
  have hnext : Preserves (w.Called [.git ("git" :: arguments) seconds]) nextRun :=
    nextRun_ignores fun _ _ h => h
  exact run_of_started hnext (fun p _ => leave_ignores (ignoresFiles_called _ _) p) rfl

theorem clone_calls (url branch : String) (target : Path) (shallow : Bool) (seconds : Int)
    (w : World) : Calls (clone url branch target shallow seconds) w
      [.git ("git" :: cloneArguments url branch target shallow) seconds] :=
  clone_of_run (I := w.Called _) (clear_ignores (ignoresFiles_called _ _) target)
    fun log => run_calls _ seconds (some target) { w with log }

theorem revision_calls (tree : Path) (seconds : Int) (w : World) :
    Calls (revision tree seconds) w
      [.git ["git", "-C", tree.toString, "rev-parse", "--short", "HEAD"] seconds] :=
  revision_of_run (I := w.Called _) (run_calls _ seconds none w)

/-- A request is one run of Git. -/
theorem Request.run_calls (limit : Int) (r : Request) (w : World) :
    Calls (r.operation limit).run w [r.call limit] := by
  cases r with
  | clone url branch target shallow => exact clone_calls url branch target shallow limit w
  | revision tree =>
    have hrevision := revision_calls tree revisionSeconds w
    exact Preserves.behind (I := w.Called _) hrevision fun _ => .pure _

theorem after_calls (limit : Int) (requests : List Request) (w : World) :
    (after (requests.map (Request.operation limit)) w).calls =
      w.calls ++ requests.map (Request.call limit) := by
  induction requests generalizing w with
  | nil => exact (List.append_nil _).symm
  | cons r rs ih =>
    have hstep : ((r.operation limit).step w).after.calls = w.calls ++ [r.call limit] :=
      r.run_calls limit w
    rw [List.map_cons, after, ih, hstep, List.map_cons, List.append_assoc, List.singleton_append]

/-! ## The runs of Git for a version -/

/-- What is asked of the source control for a version, one request after the other. -/
def requestsFor (settings : Settings) (workingDir : Option Path) (core : Core)
    (variantKey : String) (w : World) : List Request :=
  let clone := Path.ofLocation w.nextTemporary
  if core.isLatest then
    match core.checkout? with
    | some path => [.revision (Version.baseOf workingDir w / .ofString path)]
    | none => [.clone settings.repository variantKey clone true, .revision clone]
  else []

theorem ofTree_calls (limit : Int) (settings : Settings) (tree : Path) (w : World) :
    CallsUpTo (Version.ofTree (control limit) settings tree) w
      [(Request.revision tree).call limit] := by
  have hread (u : World) : CallsUpTo
      (Version.readLine (tree / .ofString settings.buildFile) settings.versionPrefix) u [] :=
    .of_calls (.of_looks (Version.readLine_looks _ _) u)
  have hask (u : World) : CallsUpTo (attempt ((control limit).revision tree)) u
      ([(Request.revision tree).call limit] ++ []) :=
    .of_calls (revision_calls tree revisionSeconds u)
  -- Without a version line nothing is asked.
  refine (hread w).bind fun line u => (hask u).bind fun outcome v => ?_
  cases outcome with
  | error f => exact .throw _ v []
  | ok revision => exact (CallsUpTo.write _ _ _ v).bind fun _ u' => .pure _ u'

theorem ofClone_calls (limit : Int) (settings : Settings) (branch : String) (tree : Path)
    (w : World) : CallsUpTo (Version.ofClone (control limit) settings branch tree) w
      [(Request.clone settings.repository branch tree true).call limit,
        (Request.revision tree).call limit] := by
  have hclone (u : World) : CallsUpTo
      (attempt ((control limit).clone settings.repository branch tree true)) u
      [(Request.clone settings.repository branch tree true).call limit] :=
    .of_calls (clone_calls settings.repository branch tree true limit u)
  refine (CallsUpTo.write _ _ _ w).bind fun _ u => (hclone u).bind fun outcome v => ?_
  cases outcome with
  | error f => exact .throw _ v _
  | ok _ => exact ofTree_calls limit settings tree v

theorem resolve_calls (limit : Int) (settings : Settings) (workingDir : Option Path) (core : Core)
    (variantKey : String) (w : World) :
    CallsUpTo (Version.resolve (control limit) settings workingDir core variantKey) w
      ((requestsFor settings workingDir core variantKey w).map (Request.call limit)) := by
  cases hlatest : core.isLatest with
  | false =>
    rw [Version.resolve_of_pinned hlatest, requestsFor, hlatest]
    exact .pure _ w
  | true =>
    cases hpath : core.checkout? with
    | some path =>
      rw [Version.resolve_of_checkout hlatest hpath, requestsFor, hlatest, hpath]
      exact .get_bind ((CallsUpTo.write _ _ _ w).bind fun _ u => ofTree_calls limit settings _ u)
    | none =>
      rw [Version.resolve_of_clone hlatest hpath, requestsFor, hlatest, hpath]
      exact .withTemporary fun u => ofClone_calls limit settings variantKey _ u

/-! ## The limit -/

/-- The calls that were made between two worlds. -/
def newCalls (w w' : World) : List Call :=
  w'.calls.drop w.calls.length

/-- Git was run once for each of some requests, under a limit. -/
structure Served (limit : Int) (requests : List Request) (w w' : World) : Prop where
  /-- A clone has the limit, and a question for a revision has its own. -/
  calls : w'.calls = w.calls ++ requests.map (Request.call limit)
  /-- All these runs are held to the limit just if none is for a revision, or the two are one. -/
  held : HeldTo limit (newCalls w w') ↔ limit = revisionSeconds ∨ ∀ r ∈ requests, r.IsClone

theorem served_of_calls {limit : Int} {requests : List Request} {w w' : World}
    (h : w'.calls = w.calls ++ requests.map (Request.call limit)) :
    Served limit requests w w' := by
  refine ⟨h, ?_⟩
  rw [newCalls, h, List.drop_left]
  exact heldTo_requests_iff limit requests

/-- The limit of a source control is kept in a session just if no revision is asked for, or the
limit is the one that revisions have anyway.  When the version is found the same holds of what is
asked then, which breaks off at a failure only. -/
theorem limits_kept_iff (w : World) :
    (∀ (limit : Int) (requests : List Request),
      Served limit requests w (after (requests.map (Request.operation limit)) w)) ∧
    ∀ (settings : Settings) (workingDir : Option Path) (core : Core) (variantKey : String),
      let resolution :=
        Version.resolve (control settings.gitTimeout) settings workingDir core variantKey
      let requests := requestsFor settings workingDir core variantKey w
      ∃ asked, asked <+: requests ∧
        (∀ version, (resolution.runIn w).1 = .ok version → asked = requests) ∧
        Served settings.gitTimeout asked w (resolution.runIn w).2 := by
  refine ⟨fun limit requests => served_of_calls (after_calls limit requests w),
    fun settings workingDir core variantKey => ?_⟩
  intro resolution requests
  obtain ⟨made, hprefix, hmade, hall⟩ :=
    resolve_calls settings.gitTimeout settings workingDir core variantKey w
  -- The first ones of the calls are those of the first ones of the requests.
  obtain ⟨asked, hasked, rfl⟩ := List.prefix_map_iff.1 hprefix
  refine ⟨asked, hasked, fun version hversion => hasked.eq_of_length ?_, served_of_calls hmade⟩
  have hlength := congrArg List.length (hall version hversion)
  rwa [List.length_map, List.length_map] at hlength

/-- A world in which Git makes a clone with a version line and tells its revision. -/
def cloneWorld : World where
  __ := World.offline .empty
  gitRuns := [
    ⟨.exited 0 "" "",
      [(["build.gradle"], .file "String umcVersion = \"1.2\"\n".toUTF8.toList)]⟩,
    ⟨.exited 0 "abc1234\n" "", []⟩]

/-- Settings with the limit that revisions have anyway. -/
def evenSettings : Settings where
  gitTimeout := 10

/-- How the newest version is found with these settings. -/
def evenResolution : Action String :=
  Version.resolve (control evenSettings.gitTimeout) evenSettings none ⟨"latest", none⟩ "1.20-forge"

theorem limits_kept_iff_even :
    (evenResolution.runIn cloneWorld).1 = .ok "1.2-abc1234" ∧
      (newCalls cloneWorld (evenResolution.runIn cloneWorld).2).length = 2 ∧
      HeldTo evenSettings.gitTimeout (newCalls cloneWorld (evenResolution.runIn cloneWorld).2) := by
  have hgives : evenResolution.gives cloneWorld
      (fun version _ => version == "1.2-abc1234") = true := by
    decide +kernel
  obtain ⟨version, w', hrun, hversion⟩ := gives_iff.1 hgives
  cases beq_iff_eq.1 hversion
  obtain ⟨-, hresolve⟩ := limits_kept_iff cloneWorld
  obtain ⟨asked, -, hall, hserved⟩ := hresolve evenSettings none ⟨"latest", none⟩ "1.20-forge"
  have hdone : (evenResolution.runIn cloneWorld).1 = .ok "1.2-abc1234" := by rw [hrun]
  refine ⟨hdone, ?_, hserved.held.2 (Or.inl rfl)⟩
  have hasked := hall _ hdone
  have hlength : asked.length = 2 := by
    rw [hasked]
    rfl
  have hcalls := hserved.calls
  change (evenResolution.runIn cloneWorld).2.calls = _ at hcalls
  rw [newCalls, hcalls, List.drop_left, List.length_map, hlength]

/-- A world with a checkout, whose revision Git will tell. -/
def checkoutWorld : World where
  __ := World.offline ⟨[
    (["u"], .directory),
    (["u", "build.gradle"], .file "String umcVersion = \"1.2\"\n".toUTF8.toList)]⟩
  gitRuns := [⟨.exited 0 "abc1234\n" "", []⟩]

/-- The question for the revision of the checkout, asked of a source control with the default
limit. -/
def defaultQuestion : Operation :=
  (Request.revision (.ofString "u")).operation ({} : Settings).gitTimeout

/-- How the newest version of the checkout is found with the default settings. -/
def defaultResolution : Action String :=
  Version.resolve (control ({} : Settings).gitTimeout) {} none ⟨"latest", some "u"⟩ "1.20-forge"

theorem limits_not_kept :
    (newCalls checkoutWorld (after [defaultQuestion] checkoutWorld) =
        [.git ["git", "-C", "u", "rev-parse", "--short", "HEAD"] 10] ∧
      ¬ HeldTo ({} : Settings).gitTimeout
        (newCalls checkoutWorld (after [defaultQuestion] checkoutWorld))) ∧
    newCalls checkoutWorld (defaultResolution.runIn checkoutWorld).2 =
        [.git ["git", "-C", "/u", "rev-parse", "--short", "HEAD"] 10] ∧
      ¬ HeldTo ({} : Settings).gitTimeout
        (newCalls checkoutWorld (defaultResolution.runIn checkoutWorld).2) := by
  have hbroken {arguments : List String} {calls : List Call} (h : calls = [.git arguments 10]) :
      ¬ HeldTo ({} : Settings).gitTimeout calls := by
    intro hheld
    have hmem : Call.git arguments 10 ∈ calls := by
      rw [h]
      exact List.mem_singleton_self _
    exact absurd (hheld arguments 10 hmem) (by decide)
  have hquestion : newCalls checkoutWorld (after [defaultQuestion] checkoutWorld) =
      [.git ["git", "-C", "u", "rev-parse", "--short", "HEAD"] 10] := by
    decide +kernel
  have hresolution : newCalls checkoutWorld (defaultResolution.runIn checkoutWorld).2 =
      [.git ["git", "-C", "/u", "rev-parse", "--short", "HEAD"] 10] := by
    decide +kernel
  exact ⟨⟨hquestion, hbroken hquestion⟩, hresolution, hbroken hresolution⟩

end ModBuild.Git
