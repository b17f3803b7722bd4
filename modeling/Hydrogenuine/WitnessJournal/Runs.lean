import Hydrogenuine.WitnessJournal.Verification

/-!
# Runs of appends

Dry runs, refused appends and appends that git stops before the files are written leave
the repository as it is.  The others write one event, whatever becomes of the commit
and the push.
-/

namespace Hydrogenuine.WitnessJournal

open Support Hydrogenuine.Core

section Writes

variable (env : WriterEnv)

def appendPasses (s : JournalState) (call : Call) : Bool :=
  match (decideAppend env.cfg call.request).1,
    checkRateLimit env.cfg call.request.importance call.now s.importantTimestamps with
  | .deny, _ => false
  | .queueForOperator, _ => false
  | _, .error _ => false
  | _, .ok _ => true

def journalWrite? (s : JournalState) (call : Call) : Option (Bundle × Items) :=
  if call.dryRun || !appendPasses env s call then none
  else
    match buildEventBundle env call (nextSequence s call.workspace)
      (previousEvent env s).1 (previousEvent env s).2, call.git.prepareRepo with
    | .ok written, .ok _ => some written
    | _, _ => none

def repoAfter (s : JournalState) (call : Call) : Repo :=
  match journalWrite? env s call with
  | some (bundle, payload) => s.repo.writeJournalFiles bundle payload
  | none => s.repo

def RepoKept (s t : JournalState) : Prop := t.repo = s.repo

instance : Std.Refl RepoKept := ⟨fun _ => rfl⟩

instance : IsTrans JournalState RepoKept := ⟨fun _ _ _ h h' => h'.trans h⟩

theorem ends_repo {α : Type} {m : JournalM α} (h : Along RepoKept m) (s : JournalState) :
    Ends m s (fun _ t => t.repo = s.repo) (fun _ t => t.repo = s.repo) :=
  h s

theorem along_updateLocalChain (workspace : String) (bundle : Bundle)
    (commit : Option String) :
    Along RepoKept (updateLocalChain workspace bundle commit) :=
  along_modify fun _ => rfl

variable {env} {call : Call} {s : JournalState} {bundle : Bundle} {payload : Items}
  {push : Bool}

theorem backendAppend_dry (hdry : call.dryRun = true) :
    Along RepoKept (backendAppend env call bundle payload push) := by
  unfold backendAppend
  rw [hdry]
  apply along_bind (along_raising _)
  intro _
  apply along_bind (along_updateLocalChain _ _ _)
  intro _
  exact along_pure _

theorem backendAppend_live (hlive : call.dryRun = false) {repo : Repo}
    (hrepo : repo =
      match call.git.prepareRepo with
      | .ok _ => s.repo.writeJournalFiles bundle payload
      | .error _ => s.repo) :
    Ends (backendAppend env call bundle payload push) s
      (fun _ t => t.repo = repo) (fun _ t => t.repo = repo) := by
  unfold backendAppend
  rw [hlive]
  apply ends_bind
  refine ends_raising (fun _ hprepare => ?_) (fun _ hprepare => ?_)
  · rw [hprepare] at hrepo
    apply ends_bind
    apply ends_modify
    -- whatever git answers from here on, the files stay
    rw [hrepo]
    refine ends_repo ?_ _
    apply along_bind (along_raising _)
    intro _
    apply along_bind (along_raising _)
    intro _
    apply along_bind (along_raising _)
    intro head
    split
    · apply along_bind (along_updateLocalChain _ _ _)
      intro _
      exact along_pure _
    · apply along_bind (along_raising _)
      intro _
      apply along_bind (along_updateLocalChain _ _ _)
      intro _
      exact along_pure _
  · rw [hprepare] at hrepo
    exact hrepo.symm

/-- What an append that passes does to the repository: the timestamps that are stored
before do not matter. -/
theorem ends_appendAllowed
    (hpasses : appendPasses env s call = true) (timestamps : List ℚ)
    (decision : AppendDecision) (reason : String) :
    Ends (appendAllowed env call decision reason)
      { s with importantTimestamps := timestamps }
      (fun _ t => t.repo = repoAfter env s call)
      (fun _ t => t.repo = repoAfter env s call) := by
  unfold appendAllowed
  apply ends_bind
  apply ends_get
  apply ends_bind
  change Ends (raising (buildEventBundle env call (nextSequence s call.workspace)
    (previousEvent env s).1 (previousEvent env s).2)) _ _ _
  unfold repoAfter journalWrite?
  rw [hpasses, Bool.not_true, Bool.or_false]
  refine ends_raising (fun written hwritten => ?_) (fun e hfailed => ?_)
  · rw [hwritten]
    apply ends_bind
    by_cases hdry : call.dryRun = true
    · rw [if_pos hdry]
      apply ends_mono (backendAppend_dry hdry _)
      · intro _ _ hkept
        exact ends_pure hkept
      · intro _ _ hkept
        exact hkept
    · rw [if_neg hdry]
      refine ends_mono (backendAppend_live (Bool.eq_false_iff.mpr hdry) rfl) ?_ ?_
      · intro _ _ hwrites
        refine ends_pure (hwrites.trans ?_)
        cases call.git.prepareRepo <;> rfl
      · intro _ _ hwrites
        refine hwrites.trans ?_
        cases call.git.prepareRepo <;> rfl
  · rw [hfailed]
    split_ifs <;> rfl

theorem ends_appendJournalEvent :
    Ends (appendJournalEvent env call) s
      (fun _ t => t.repo = repoAfter env s call)
      (fun _ t => t.repo = repoAfter env s call) := by
  have hstops (hpasses : appendPasses env s call = false) :
      repoAfter env s call = s.repo := by
    unfold repoAfter journalWrite?
    rw [hpasses, Bool.not_false, Bool.or_true]
    rfl
  unfold appendJournalEvent
  split
  next reason hdecision =>
    refine ends_pure (hstops ?_).symm
    unfold appendPasses
    rw [hdecision]
  next reason hdecision =>
    refine ends_pure (hstops ?_).symm
    unfold appendPasses
    rw [hdecision]
  next decision reason hdeny hqueue hdecision =>
    apply ends_bind
    apply ends_get
    split
    next text hlimited =>
      refine ends_pure (hstops ?_).symm
      unfold appendPasses
      rw [hdecision, hlimited]
      cases decision <;> rfl
    next timestamps hpassed =>
      apply ends_bind
      apply ends_set
      apply ends_appendAllowed
      unfold appendPasses
      rw [hdecision, hpassed]
      cases decision with
      | deny => exact (hdeny rfl).elim
      | queueForOperator => exact (hqueue rfl).elim
      | allowLocalOnly => rfl
      | allowLivePush => rfl
      | fullStop => rfl

end Writes

/-! ## The journal -/

section Runs

variable (env : WriterEnv)

def journalMachine : Machine JournalState Call (Except JournalError AppendResult) where
  step s call :=
    (finalState (appendJournalEvent env call) s, outcome (appendJournalEvent env call) s)

/-- If the append gets to write its event, then the number and the hash that it goes by
continue the event files of the repository. -/
def WritesInOrder (s : JournalState) (call : Call) : Prop :=
  (journalWrite? env s call).isSome →
    Continues s.repo call.request.eventClass (nextSequence s call.workspace)
      (previousEvent env s).1

variable {env} {s : JournalState} {call : Call} {host : Host}

theorem sound_empty : Sound host {} where
  numbered := fun _ _ h => by cases h
  linked := ⟨.none, trivial⟩
  bounded := Nat.zero_le _
  count := rfl
  sequence := rfl
  latest := fun h => absurd rfl h

theorem Sound.append (h : Sound env.host s.repo) (horder : WritesInOrder env s call) :
    Sound env.host (repoAfter env s call) := by
  unfold repoAfter
  split
  next bundle payload hwrite =>
    have hcontinues := horder (Option.isSome_of_eq_some hwrite)
    unfold journalWrite? at hwrite
    split at hwrite
    · cases hwrite
    · split at hwrite
      next written _ hbuild _ =>
        obtain rfl := Option.some.inj hwrite
        obtain ⟨hbuilt, hbundle⟩ := built_of_build hbuild
        subst hbundle
        exact h.write hbuilt hcontinues
      next => cases hwrite
  next => exact h

/-! ### An installation -/

def plainWriter : WriterEnv where
  host := referenceHost
  cfg := {}
  moduleWorkspace := "/srv"
  containsSecret := fun _ => false

def freshJournal : JournalState where
  repo := {}
  localChains := fun _ => none
  importantTimestamps := []

def obligingGit : Git where
  init := .ok ()
  prepareRepo := .ok ()
  add := .ok ()
  commit := .ok ()
  revParse := .ok "abc123"
  push := .ok ()

def appendCall (eventClass : EventClass) (dryRun : Bool) : Call where
  request :=
    { kind := .anchorMissionStart
      eventClass
      importance := .routine
      summary := "boot" }
  workspace := "/srv"
  dryRun
  now := 0
  createdUtc := "2026-01-01T00:00:00Z"
  signing := .ok none
  git := obligingGit

def bootedJournal : JournalState :=
  (journalMachine plainWriter).final freshJournal [appendCall .bootStart false]

/-! ### Verification -/

/-- The repository verifies after every append of a run that writes in order. -/
theorem journal_verifiable
    (env : WriterEnv) (s₀ : JournalState) (hempty : s₀.repo = {}) (calls : List Call)
    (hguard : (journalMachine env).Guarded (WritesInOrder env) s₀ calls) :
    ∀ e ∈ (journalMachine env).trace s₀ calls,
      ∃ verification, verifyChain env.host e.after.repo = .ok verification ∧
        verification.ok = true := by
  have hinv := Machine.invariant_of_guarded
    (fun tr s => Sound env.host s.repo ∧ ∀ e ∈ tr, Sound env.host e.after.repo)
    ⟨hempty ▸ sound_empty, List.forall_mem_nil _⟩
    (fun tr s call ⟨hsound, htrace⟩ horder => by
      have hrepo : ((journalMachine env).step s call).1.repo = repoAfter env s call := by
        rcases (@ends_appendJournalEvent env call s).cases with
          ⟨_, -, h⟩ | ⟨_, -, h⟩ <;> exact h
      have hafter : Sound env.host ((journalMachine env).step s call).1.repo := by
        rw [hrepo]
        exact hsound.append horder
      exact ⟨hafter, List.forall_mem_append.mpr
        ⟨htrace, List.forall_mem_singleton.mpr hafter⟩⟩) calls hguard
  intro e he
  exact verifyChain_of_sound (hinv.2 e he)

/-- Two live appends from the beginning. -/
theorem journal_verifiable_boot :
    (journalMachine plainWriter).Guarded (WritesInOrder plainWriter) freshJournal
        [appendCall .bootStart false, appendCall .bootVerified false] ∧
      ∀ e ∈ (journalMachine plainWriter).trace freshJournal
        [appendCall .bootStart false, appendCall .bootVerified false],
        ∃ verification, verifyChain plainWriter.host e.after.repo = .ok verification ∧
          verification.ok = true := by
  refine ⟨?order, journal_verifiable plainWriter freshJournal rfl _ ?order⟩
  refine Machine.guarded_cons.mpr ⟨fun _ => ⟨rfl, by decide, fun h => absurd rfl h⟩,
    Machine.guarded_cons.mpr ⟨fun _ => ⟨?_, ?_, fun _ => ?_⟩, Machine.guarded_nil⟩⟩
  · decide +kernel
  · decide +kernel
  · -- the local chain file holds the hash of the event that was written first
    change PyVal.ofOption (previousEvent plainWriter bootedJournal).1 = lastHash _
    have hsome : (previousEvent plainWriter bootedJournal).1.isSome = true := by
      decide +kernel
    have hlink : (lastHash (bootedJournal.repo.others (eventFilename
        (nextSequence bootedJournal "/srv") .bootVerified))).pyEq
          (.ofOption (previousEvent plainWriter bootedJournal).1) = true := by
      decide +kernel
    obtain ⟨sha, hsha⟩ := Option.isSome_iff_exists.mp hsome
    rw [hsha] at hlink ⊢
    exact ((PyVal.pyEq_str_iff _ _).mp hlink).symm

/-- A live append after a dry run: its event has the number one in a repository of one
event, and the repository no longer verifies. -/
theorem dryRun_not_verifiable :
    ¬ ∀ e ∈ (journalMachine plainWriter).trace freshJournal
      [appendCall .bootStart true, appendCall .bootStart false],
      e.input.dryRun = false → (∃ result, e.output = .ok result) →
        ∃ verification, verifyChain plainWriter.host e.after.repo = .ok verification ∧
          verification.ok = true := by
  intro h
  obtain ⟨verification, hverified, hok⟩ := h _
    (List.mem_cons_of_mem _ (List.mem_singleton_self _)) rfl ⟨_, rfl⟩
  have hbroken : (verifyChain plainWriter.host ((journalMachine plainWriter).final
      freshJournal [appendCall .bootStart true, appendCall .bootStart false]).repo).toOption.map
        (fun verification => verification.ok) = some false := by
    decide +kernel
  have hsome : (verifyChain plainWriter.host ((journalMachine plainWriter).final
      freshJournal [appendCall .bootStart true, appendCall .bootStart false]).repo) =
        .ok verification := hverified
  rw [hsome] at hbroken
  exact Bool.false_ne_true ((Option.some.inj hbroken).symm.trans hok)

end Runs

end Hydrogenuine.WitnessJournal
