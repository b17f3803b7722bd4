import Hydrogenuine.Core.ReferenceHost
import Hydrogenuine.Emergence.Lifecycle

/-!
# When a wake follows the declared machine

Every wake visits a path of `ALLOWED_TRANSITIONS`, since `advance` refuses all
other moves.  Its drafts and its final state follow that path exactly when the
wake is refused before the event head is read, or replay verifies the log and
no panic is active: after a failed replay, and on a verdict of safe mode,
states are reported that the machine does not let the wake enter.
-/

namespace Hydrogenuine.Emergence

open Support Hydrogenuine.Core Hydrogenuine.Runtime

/-! ## What a wake should satisfy -/

/-- Work admission is open only at the end of the path, with neither panic nor
lockdown, and with every required check run and not failed. -/
def AdmitsSafely
    (call : WakeCall) (profile : WakeProfile) (result : WakeResult) : Prop :=
  result.workAdmissionOpen = true →
    result.statesVisited.getLast? = some .workAdmissionOpen ∧
      call.panicActive = false ∧ call.lockdownActive = false ∧
      (∀ check ∈ result.checks,
        check.requiredForProfile = true → check.status ≠ .fail) ∧
      ∀ checkId ∈ profile.requiredChecks, ∃ check ∈ result.checks,
        check.checkId = checkId ∧ check.requiredForProfile = true

/-- Path, drafts and result of a wake agree with the declared machine. -/
structure FollowsMachine
    (env : WakeEnv) (call : WakeCall) (drafts : List Draft)
    (result : WakeResult) : Prop where
  starts : result.statesVisited.head? = some .cold
  path : result.statesVisited.IsChain fun s t => t ∈ allowedTransitions s
  ends : result.statesVisited.getLast? = some result.finalState
  reported : (reportedStates drafts).Sublist result.statesVisited
  admits : ∀ profile, getProfile env call.request.profile = .ok profile →
    AdmitsSafely call profile result

/-- The drafts handed in, as far as they are used, report no state. -/
def HandsInNoReport (call : WakeCall) (profile : WakeProfile) : Prop :=
  (call.config.ysrOnStaleScratch = true → call.staleScratch = true →
      reportedStates call.ysrDrafts = []) ∧
    (call.config.allowQuietSettling = true →
      profile.allowQuietSettling = true → reportedStates call.mscDrafts = [])

/-- The wake is refused before the event head is read, or replay verifies the
log while no panic is active. -/
def StaysOnPathAs
    (env : WakeEnv) (call : WakeCall) (profile : WakeProfile) : Prop :=
  call.config.enabled = false ∨
    (call.request.agentId = "" ∧
      "identity_bound" ∈ profile.requiredChecks) ∨
    call.bus = none ∨
    (call.panicActive = false ∧ call.replayForceFail = false ∧
      (∃ outcome, env.replay call.runtimeDir = .ok outcome ∧
        outcome.ok = true) ∧
      HandsInNoReport call profile)

def StaysOnPath (env : WakeEnv) (call : WakeCall) : Prop :=
  ∃ profile, getProfile env call.request.profile = .ok profile ∧
    StaysOnPathAs env call profile

variable {out : List Draft × WakeResult} {profile : WakeProfile} {call : WakeCall}
  {env : WakeEnv}

theorem staysOnPath_iff
    (hprofile : getProfile env call.request.profile = .ok profile) :
    StaysOnPath env call ↔ StaysOnPathAs env call profile := by
  constructor
  · rintro ⟨profile', hprofile', hstays⟩
    have hsame : profile = profile' :=
      Except.ok.inj (hprofile.symm.trans hprofile')
    rw [hsame]
    exact hstays
  · intro hstays
    exact ⟨profile, hprofile, hstays⟩

/-! ## Standing at a state -/

/-- The wake stands at `s`, and `k` of its drafts report a state that was not
entered with them. -/
structure At (wake : Wake) (s : WakeState) (k : ℕ) : Prop where
  walk : Journal.Walk canTransition .cold wake
  tally : Journal.Tally reportedState .cold wake k
  current : wake.current = s

variable {wake : Wake} {s t : WakeState} {k : ℕ} {draft : Draft}

theorem at_start : At (Journal.start .cold) .cold 0 where
  walk := Journal.walk_start
  tally := Journal.tally_start
  current := rfl

theorem At.enter
    (h : At wake s k) (t : WakeState) (draft : Draft)
    (hcan : canTransition s t = true) (hdraft : reportedState draft = some t) :
    At (wake.enter t draft) t k where
  walk := h.walk.enter t draft
  tally := h.tally.enter (by rw [h.current]; exact hcan) hdraft
  current := by
    rw [Wake.enter, Journal.enter_current, h.current, hcan]
    exact if_pos rfl

theorem At.enter_refused
    (h : At wake s k) (hcan : canTransition s t = false)
    (hdraft : reportedState draft = some t) :
    At (wake.enter t draft) s (k + 1) where
  walk := h.walk.enter t draft
  tally := h.tally.enter_refused (by rw [h.current]; exact hcan) hdraft
  current := by
    rw [Wake.enter, Journal.enter_current, h.current, hcan]
    exact if_neg Bool.false_ne_true

theorem At.note (h : At wake s k) (drafts : List Draft) :
    At (wake.note drafts) s (k + (reportedStates drafts).length) where
  walk := h.walk.note drafts
  tally := h.tally.note drafts
  current := h.current

theorem At.noteChecks
    (h : At wake s k) (wakeId : String) (checks : List ReadinessCheck) :
    At (wake.note (checks.map (Bridge.readinessCheckRecorded wakeId))) s k := by
  have hnote := h.note (checks.map (Bridge.readinessCheckRecorded wakeId))
  rw [reportedStates_checks] at hnote
  exact hnote

/-- Some draft of the wake reports a state that was not entered with it. -/
def Slipped (wake : Wake) : Prop := ∃ s k, 0 < k ∧ At wake s k

theorem Slipped.enter
    (h : Slipped wake) (hdraft : reportedState draft = some t) :
    Slipped (wake.enter t draft) := by
  obtain ⟨s, k, hk, hat⟩ := h
  cases hcan : canTransition s t with
  | true => exact ⟨t, k, hk, hat.enter t draft hcan hdraft⟩
  | false => exact ⟨s, k + 1, k.succ_pos, hat.enter_refused hcan hdraft⟩

theorem Slipped.note (h : Slipped wake) (drafts : List Draft) :
    Slipped (wake.note drafts) := by
  obtain ⟨s, k, hk, hat⟩ := h
  exact ⟨s, _, Nat.add_pos_left hk _, hat.note drafts⟩

theorem At.slipped
    (h : At wake s k) (hcan : canTransition s t = false)
    (hdraft : reportedState draft = some t) :
    Slipped (wake.enter t draft) :=
  ⟨s, k + 1, k.succ_pos, h.enter_refused hcan hdraft⟩

/-! ## Returning the wake -/

/-- What is returned is the wake itself, with `k` slips; without slips it ends
in the state the result names, and its work admission is safe. -/
structure Returns
    (call : WakeCall) (profile : WakeProfile)
    (out : List Draft × WakeResult) (k : ℕ) : Prop where
  standing : ∃ wake s, At wake s k ∧ out.1 = wake.entries ∧
    out.2.statesVisited = wake.visited ∧ (k = 0 → s = out.2.finalState)
  admits : k = 0 → AdmitsSafely call profile out.2

theorem Returns.follows_iff
    (h : Returns call profile out k)
    (hprofile : getProfile env call.request.profile = .ok profile) :
    FollowsMachine env call out.1 out.2 ↔ k = 0 := by
  obtain ⟨wake, s, hat, hentries, hvisited, hends⟩ := h.standing
  have hreported := hat.tally.sublist_iff hat.walk.first reportedState_ne_cold
  constructor
  · intro hfollows
    have hsub := hfollows.reported
    rw [hentries, hvisited] at hsub
    exact hreported.mp hsub
  · intro hk
    constructor
    · rw [hvisited]
      exact hat.walk.first
    · rw [hvisited]
      exact hat.walk.chain.imp fun a b hab => (canTransition_iff a b).mp hab
    · rw [hvisited, hat.walk.last, hat.current, hends hk]
    · rw [hentries, hvisited]
      exact hreported.mpr hk
    · intro profile' hprofile'
      have hsame : profile = profile' :=
        Except.ok.inj (hprofile.symm.trans hprofile')
      rw [← hsame]
      exact h.admits hk

theorem Slipped.returns
    (h : Slipped wake) (hentries : out.1 = wake.entries)
    (hvisited : out.2.statesVisited = wake.visited) :
    ∃ k, 0 < k ∧ Returns call profile out k := by
  obtain ⟨s, k, hk, hat⟩ := h
  refine ⟨k, hk, ⟨wake, s, hat, hentries, hvisited, ?_⟩, ?_⟩
  · intro hzero
    omega
  · intro hzero
    omega

theorem refuseEarly_returns (profile : WakeProfile) (wakeId reason : String)
    (h : At wake s 0) (hcan : canTransition s .wakeRefused = true) :
    Returns call profile (refuseEarly call wakeId wake reason) 0 where
  standing := ⟨_, _, h.enter _ _ hcan rfl, rfl, rfl, fun _ => rfl⟩
  admits := fun _ hopen => absurd hopen Bool.false_ne_true

theorem refuseMismatch_returns
    {wakeId : String} {head : Option ℤ}
    (h : At wake .replayFailed k)
    (hrun : refuseMismatch env call profile wakeId head wake = .ok out) :
    ∃ k', 0 < k' ∧ Returns call profile out k' := by
  unfold refuseMismatch at hrun
  dsimp only at hrun
  cases hchecks : runAllChecks env profile (buildContext env call) with
  | error e =>
      rw [hchecks] at hrun
      cases hrun
  | ok checks =>
      rw [hchecks] at hrun
      obtain rfl := Except.ok.inj hrun
      have hcan : canTransition .replayFailed .safeModeEntered = true := by
        decide
      have hsafe : At
          (wake.enter .safeModeEntered
            (Bridge.safeModeEntered wakeId call.request "REPLAY_MISMATCH"))
          .safeModeEntered k :=
        h.enter _ _ hcan rfl
      have hnoted := hsafe.noteChecks wakeId checks
      have hrefused : canTransition .safeModeEntered .wakeRefused = false := by
        decide
      exact (hnoted.slipped hrefused rfl).returns rfl rfl

/-! ## The conclusion -/

section Conclude

variable {call : WakeCall} {profile : WakeProfile} {wakeId : String}
  {head : Option ℤ} {stateHash : String} {checks : List ReadinessCheck}
  {posture : StartupPosture}

/-- The states from which the verdict is drawn. -/
def Settled (s : WakeState) : Prop :=
  s = .capabilityCatalogLoaded ∨ s = .quietSettlingOptional

theorem conclude_slipped
    (h : Slipped wake) (verdict : ReadinessVerdict)
    (refusalReason : Option String) :
    ∃ k, 0 < k ∧ Returns call profile
      (conclude call wakeId head stateHash checks verdict refusalReason
        posture wake) k := by
  unfold conclude
  dsimp only
  split
  · split
    · exact ((h.enter rfl).enter rfl).returns rfl rfl
    · exact (h.enter rfl).returns rfl rfl
  · split
    · exact ((h.enter rfl).enter rfl).returns rfl rfl
    · exact ((h.enter rfl).enter rfl).returns rfl rfl

theorem conclude_safeMode
    (h : At wake s k) (hs : Settled s) {reason : String}
    (hreason : isText (some reason) = true) :
    ∃ k', 0 < k' ∧ Returns call profile
      (conclude call wakeId head stateHash checks .safeMode (some reason)
        posture wake) k' := by
  have hrefuse : canTransition s .safeModeEntered = false := by
    rcases hs with rfl | rfl <;> decide
  unfold conclude
  dsimp only
  rw [if_pos ⟨Or.inr (Or.inr rfl), hreason⟩, if_pos rfl]
  exact ((h.slipped hrefuse rfl).enter rfl).returns rfl rfl

theorem conclude_refused
    (h : At wake s k) (hs : Settled s) {reason : String}
    (hreason : isText (some reason) = true) :
    Returns call profile
      (conclude call wakeId head stateHash checks .refused (some reason)
        posture wake) k := by
  unfold conclude
  dsimp only
  have hcan : canTransition s .wakeRefused = true := by
    rcases hs with rfl | rfl <;> decide
  have hrefused := h.enter .wakeRefused
    (Bridge.wakeRefused wakeId call.request reason) hcan rfl
  rw [if_pos ⟨Or.inl rfl, hreason⟩, if_neg (by decide)]
  constructor
  · exact ⟨_, _, hrefused, rfl, rfl, fun _ => rfl⟩
  · intro _ hopen
    exact absurd hopen Bool.false_ne_true

theorem conclude_ready
    (h : At wake s k) (hs : Settled s) {verdict : ReadinessVerdict}
    (hverdict : verdict = .ready ∨ verdict = .degradedReady)
    (hpanic : call.panicActive = false)
    (hlockdown : call.lockdownActive = false)
    (hpassed : ∀ check ∈ checks,
      check.requiredForProfile = true → check.status ≠ .fail)
    (hrequired : ∀ checkId ∈ profile.requiredChecks, ∃ check ∈ checks,
      check.checkId = checkId ∧ check.requiredForProfile = true) :
    Returns call profile
      (conclude call wakeId head stateHash checks verdict none posture wake)
      k := by
  -- the declared readiness is the only thing the two verdicts differ in
  have hopened : ∃ declared : Wake, ∃ t,
      (if verdict = .degradedReady then
        wake.enter .degradedReadyDeclared
          (Bridge.degradedReadyDeclared wakeId call.request posture)
      else
        wake.enter .readyDeclared
          (Bridge.readyDeclared wakeId call.request posture)) = declared ∧
        At declared t k ∧ canTransition t .workAdmissionOpen = true := by
    rcases hverdict with rfl | rfl
    · have hcan : canTransition s .readyDeclared = true := by
        rcases hs with rfl | rfl <;> decide
      exact ⟨_, _, if_neg (by decide), h.enter _ _ hcan rfl, by decide⟩
    · have hcan : canTransition s .degradedReadyDeclared = true := by
        rcases hs with rfl | rfl <;> decide
      exact ⟨_, _, if_pos rfl, h.enter _ _ hcan rfl, by decide⟩
  obtain ⟨declared, t, hdeclared, hat, hcan⟩ := hopened
  have hopen := hat.enter .workAdmissionOpen
    (Bridge.workAdmissionOpened wakeId call.request posture) hcan rfl
  unfold conclude
  dsimp only
  rw [if_neg (fun hrefused => Bool.false_ne_true hrefused.2), hdeclared]
  constructor
  · exact ⟨_, _, hopen, rfl, rfl, fun _ => rfl⟩
  · intro _ _
    refine ⟨?_, hpanic, hlockdown, hpassed, hrequired⟩
    exact hopen.walk.last.trans (congrArg some hopen.current)

theorem quietSettle_settled
    (h : At wake .capabilityCatalogLoaded k) (call : WakeCall)
    (profile : WakeProfile) (wakeId : String) :
    ∃ s k', Settled s ∧ At (quietSettle call profile wakeId wake) s k' ∧
      (k' = 0 ↔ k = 0 ∧ (call.config.allowQuietSettling = true →
        profile.allowQuietSettling = true →
          reportedStates call.mscDrafts = [])) := by
  unfold quietSettle
  split
  · rename_i hused
    simp only [Bool.and_eq_true, Bool.not_eq_true'] at hused
    have hcan : canTransition .capabilityCatalogLoaded .quietSettlingOptional =
        true := by
      decide
    have hentered : At
        (wake.enter .quietSettlingOptional
          (Bridge.quietSettlingStarted wakeId call.request))
        .quietSettlingOptional k :=
      h.enter _ _ hcan rfl
    have hdone := (hentered.note call.mscDrafts).note
      [Bridge.quietSettlingCompleted wakeId call.request]
    refine ⟨_, _, Or.inr rfl, hdone, ?_⟩
    have hcompleted : (reportedStates
        [Bridge.quietSettlingCompleted wakeId call.request]).length = 0 := rfl
    rw [hcompleted, Nat.add_zero, Nat.add_eq_zero_iff, List.length_eq_zero_iff]
    constructor
    · rintro ⟨hk, hmsc⟩
      exact ⟨hk, fun _ _ => hmsc⟩
    · rintro ⟨hk, hmsc⟩
      exact ⟨hk, hmsc hused.1.1 hused.1.2⟩
  · rename_i hunused
    refine ⟨_, _, Or.inl rfl, h, ?_⟩
    constructor
    · intro hk
      refine ⟨hk, fun hconfig hallow => ?_⟩
      have hempty : call.mscDrafts = [] := by
        simpa [hconfig, hallow] using hunused
      rw [hempty]
      rfl
    · exact fun h => h.1

theorem Slipped.quietSettle (h : Slipped wake) :
    Slipped (quietSettle call profile wakeId wake) := by
  unfold Emergence.quietSettle
  split
  · exact ((h.enter rfl).note _).note _
  · exact h

end Conclude

/-! ## From the derived world state on -/

section Derive

variable {env : WakeEnv} {call : WakeCall} {profile : WakeProfile}
  {wakeId : String} {head : Option ℤ} {out : List Draft × WakeResult}

def surveyed
    (call : WakeCall) (wakeId stateHash : String)
    (checks : List ReadinessCheck) (memStatus : CheckStatus)
    (posture : StartupPosture) (wake : Wake) : Wake :=
  let derived := wake.enter .worldStateDerived
    (Bridge.worldStateDerived wakeId call.request stateHash)
  let noted : Wake :=
    derived.note (checks.map (Bridge.readinessCheckRecorded wakeId))
  let loaded := noted.enter .memoryContextLoaded
    (Bridge.memoryContextLoaded wakeId call.request memStatus)
  let selected := loaded.enter .postureSelected
    (Bridge.postureSelected wakeId call.request posture)
  selected.enter .capabilityCatalogLoaded
    (Bridge.capabilityCatalogLoaded wakeId call.request)

theorem surveyed_slipped
    (h : At wake .replayFailed k) (call : WakeCall)
    (wakeId stateHash : String) (checks : List ReadinessCheck) (memStatus : CheckStatus)
    (posture : StartupPosture) :
    Slipped
      (surveyed call wakeId stateHash checks memStatus posture wake) := by
  have hrefuse : canTransition .replayFailed .worldStateDerived = false := by
    decide
  have hderived : Slipped (wake.enter .worldStateDerived
      (Bridge.worldStateDerived wakeId call.request stateHash)) :=
    h.slipped hrefuse rfl
  have hnoted := hderived.note
    (checks.map (Bridge.readinessCheckRecorded wakeId))
  exact ((hnoted.enter rfl).enter rfl).enter rfl

theorem surveyed_at
    (h : At wake .replayVerified k) (call : WakeCall)
    (wakeId stateHash : String) (checks : List ReadinessCheck) (memStatus : CheckStatus)
    (posture : StartupPosture) :
    At (surveyed call wakeId stateHash checks memStatus posture wake)
      .capabilityCatalogLoaded k := by
  have hderived : At (wake.enter .worldStateDerived
      (Bridge.worldStateDerived wakeId call.request stateHash))
      .worldStateDerived k :=
    h.enter _ _ (by decide) rfl
  have hnoted := hderived.noteChecks wakeId checks
  have hloaded := hnoted.enter .memoryContextLoaded
    (Bridge.memoryContextLoaded wakeId call.request memStatus) (by decide) rfl
  have hselected := hloaded.enter .postureSelected
    (Bridge.postureSelected wakeId call.request posture) (by decide) rfl
  exact hselected.enter _ _ (by decide) rfl

theorem deriveAndConclude_eq_ok
    {replayed : Option ReplayOutcome}
    (hrun : deriveAndConclude env call profile wakeId head replayed wake =
      .ok out) :
    ∃ checks stateHash memStatus posture,
      runAllChecks env profile (buildContext env call) = .ok checks ∧
      out = conclude call wakeId head stateHash checks
        (aggregateVerdict checks profile call.panicActive call.lockdownActive
          (call.replayForceFail ||
            !(match replayed with
              | some outcome => outcome.ok
              | none => false))
          call.config.refuseOnReplayMismatch).1
        (aggregateVerdict checks profile call.panicActive call.lockdownActive
          (call.replayForceFail ||
            !(match replayed with
              | some outcome => outcome.ok
              | none => false))
          call.config.refuseOnReplayMismatch).2
        posture
        (quietSettle call profile wakeId
          (surveyed call wakeId stateHash checks memStatus posture wake)) := by
  unfold deriveAndConclude at hrun
  dsimp only at hrun
  cases hchecks : runAllChecks env profile (buildContext env call) with
  | error e =>
      rw [hchecks] at hrun
      cases hrun
  | ok checks =>
      rw [hchecks] at hrun
      exact ⟨checks, _, _, _, rfl, (Except.ok.inj hrun).symm⟩

theorem deriveAndConclude_failed
    {replayed : Option ReplayOutcome} (h : At wake .replayFailed k)
    (hrun : deriveAndConclude env call profile wakeId head replayed wake =
      .ok out) :
    ∃ k', 0 < k' ∧ Returns call profile out k' := by
  obtain ⟨checks, stateHash, memStatus, posture, -, rfl⟩ :=
    deriveAndConclude_eq_ok hrun
  have hsurveyed := surveyed_slipped h call wakeId stateHash
    checks memStatus posture
  exact conclude_slipped hsurveyed.quietSettle _ _

/-- After a verified replay, the slips are those of the drafts handed in and
that of an active panic. -/
theorem deriveAndConclude_verified
    {outcome : ReplayOutcome} (h : At wake .replayVerified k)
    (hok : outcome.ok = true) (hforce : call.replayForceFail = false)
    (hrun : deriveAndConclude env call profile wakeId head (some outcome)
      wake = .ok out) :
    ∃ k', Returns call profile out k' ∧
      (k' = 0 ↔ k = 0 ∧ call.panicActive = false ∧
        (call.config.allowQuietSettling = true →
          profile.allowQuietSettling = true →
            reportedStates call.mscDrafts = [])) := by
  obtain ⟨checks, stateHash, memStatus, posture, hchecks, rfl⟩ :=
    deriveAndConclude_eq_ok hrun
  have hsurveyed := surveyed_at h call wakeId stateHash
    checks memStatus posture
  obtain ⟨s, k', hs, hat, hk'⟩ :=
    quietSettle_settled hsurveyed call profile wakeId
  simp only [hforce, hok, Bool.not_true, Bool.or_false]
  cases hpanic : call.panicActive with
  | true =>
      rw [aggregateVerdict_panic]
      have hreason : isText (some "PANIC_ACTIVE") = true := by decide
      obtain ⟨k'', hpos, hreturns⟩ :
          ∃ k'', 0 < k'' ∧ Returns call profile
            (conclude call wakeId head stateHash checks .safeMode
              (some "PANIC_ACTIVE") posture
              (quietSettle call profile wakeId
                (surveyed call wakeId stateHash checks memStatus posture
                  wake))) k'' :=
        conclude_safeMode hat hs hreason
      refine ⟨k'', hreturns, ?_⟩
      constructor
      · intro hzero
        omega
      · rintro ⟨-, hfalse, -⟩
        exact absurd hfalse.symm Bool.false_ne_true
  | false =>
      have hslips : k' = 0 ↔ k = 0 ∧ false = false ∧
          (call.config.allowQuietSettling = true →
            profile.allowQuietSettling = true →
              reportedStates call.mscDrafts = []) := by
        simpa only [true_and] using hk'
      rcases aggregateVerdict_cases checks profile call.lockdownActive
          call.config.refuseOnReplayMismatch with
        ⟨reason, hreason, hverdict⟩ |
        ⟨verdict, hready, hverdict, hlockdown, hpassed⟩
      · rw [hverdict]
        exact ⟨k', conclude_refused hat hs hreason, hslips⟩
      · rw [hverdict]
        exact ⟨k', conclude_ready hat hs hready hpanic hlockdown hpassed
          fun checkId hid => runAllChecks_required hchecks hid, hslips⟩

end Derive

/-! ## The whole cycle -/

section Cycle

variable {env : WakeEnv} {call : WakeCall} {profile : WakeProfile}
  {out : List Draft × WakeResult}

def headRead (call : WakeCall) (wakeId : String) : Wake :=
  let requested := Wake.enter (Journal.start .cold) .wakeRequested
    (Bridge.wakeRequested wakeId call.request)
  let started := requested.enter .processStarted
    (Bridge.processStarted wakeId call.request)
  let loaded := started.enter .configLoaded
    (Bridge.configLoaded wakeId call.request)
  let bound := loaded.enter .identityBound
    (Bridge.identityBound wakeId call.request)
  let connected := bound.enter .eventBusConnected
    (Bridge.eventBusConnected wakeId call.request)
  let read := connected.enter .eventHeadRead
    (Bridge.eventHeadRead wakeId call.request (busHeadSeq call.bus))
  if call.config.ysrOnStaleScratch && call.staleScratch &&
      !call.ysrDrafts.isEmpty then
    read.note call.ysrDrafts
  else read

theorem headRead_at (call : WakeCall) (wakeId : String) :
    ∃ k, At (headRead call wakeId) .eventHeadRead k ∧
      (k = 0 ↔ (call.config.ysrOnStaleScratch = true →
        call.staleScratch = true → reportedStates call.ysrDrafts = [])) := by
  have hrequested : At
      (Wake.enter (Journal.start .cold) .wakeRequested
        (Bridge.wakeRequested wakeId call.request)) .wakeRequested 0 :=
    at_start.enter _ _ (by decide) rfl
  have hstarted := hrequested.enter .processStarted
    (Bridge.processStarted wakeId call.request) (by decide) rfl
  have hloaded := hstarted.enter .configLoaded
    (Bridge.configLoaded wakeId call.request) (by decide) rfl
  have hbound := hloaded.enter .identityBound
    (Bridge.identityBound wakeId call.request) (by decide) rfl
  have hconnected := hbound.enter .eventBusConnected
    (Bridge.eventBusConnected wakeId call.request) (by decide) rfl
  have hread := hconnected.enter .eventHeadRead
    (Bridge.eventHeadRead wakeId call.request (busHeadSeq call.bus)) (by decide) rfl
  unfold headRead
  dsimp only
  split
  · rename_i hused
    simp only [Bool.and_eq_true, Bool.not_eq_true'] at hused
    refine ⟨_, hread.note call.ysrDrafts, ?_⟩
    rw [Nat.zero_add, List.length_eq_zero_iff]
    constructor
    · exact fun hysr _ _ => hysr
    · exact fun hysr => hysr hused.1.1 hused.1.2
  · rename_i hunused
    refine ⟨0, hread, ?_⟩
    constructor
    · intro _ hconfig hstale
      have hempty : call.ysrDrafts = [] := by
        simpa [hconfig, hstale] using hunused
      rw [hempty]
      rfl
    · exact fun _ => rfl

/-- From the event head on, a wake has no slip exactly when replay verifies the
log, no panic is active and the drafts handed in report nothing. -/
theorem replayAndConclude_returns
    {wakeId : String} {head : Option ℤ}
    (h : At wake .eventHeadRead k)
    (hrun : replayAndConclude env call profile wakeId head wake = .ok out) :
    ∃ k', Returns call profile out k' ∧
      (k' = 0 ↔ k = 0 ∧ call.panicActive = false ∧
        call.replayForceFail = false ∧
        (∃ outcome, env.replay call.runtimeDir = .ok outcome ∧
          outcome.ok = true) ∧
        (call.config.allowQuietSettling = true →
          profile.allowQuietSettling = true →
            reportedStates call.mscDrafts = [])) := by
  have hfailed : At
      (wake.enter .replayFailed
        (Bridge.replayFailed wakeId call.request "REPLAY_MISMATCH"))
      .replayFailed k :=
    h.enter _ _ (by decide) rfl
  -- both exits after a failed replay slip
  have hslips : ∀ replayed,
      (if call.config.refuseOnReplayMismatch then
        refuseMismatch env call profile wakeId head
          (wake.enter .replayFailed
            (Bridge.replayFailed wakeId call.request "REPLAY_MISMATCH"))
      else
        deriveAndConclude env call profile wakeId head replayed
          (wake.enter .replayFailed
            (Bridge.replayFailed wakeId call.request "REPLAY_MISMATCH"))) =
        .ok out →
      ∃ k', 0 < k' ∧ Returns call profile out k' := by
    intro replayed hexit
    split at hexit
    · exact refuseMismatch_returns hfailed hexit
    · exact deriveAndConclude_failed hfailed hexit
  unfold replayAndConclude at hrun
  cases hforce : call.replayForceFail with
  | true =>
      simp only [hforce, if_true, pure_bind] at hrun
      obtain ⟨k', hpos, hreturns⟩ := hslips none hrun
      refine ⟨k', hreturns, ?_⟩
      constructor
      · intro hzero
        omega
      · rintro ⟨-, -, hfalse, -⟩
        exact absurd hfalse.symm Bool.false_ne_true
  | false =>
      simp only [hforce, Bool.false_eq_true, if_false] at hrun
      cases hreplay : env.replay call.runtimeDir with
      | error e =>
          rw [hreplay] at hrun
          cases hrun
      | ok outcome =>
          obtain ⟨ok, stateHash⟩ := outcome
          rw [hreplay] at hrun
          cases ok with
          | false =>
              obtain ⟨k', hpos, hreturns⟩ := hslips _ hrun
              refine ⟨k', hreturns, ?_⟩
              constructor
              · intro hzero
                omega
              · rintro ⟨-, -, -, ⟨outcome, houtcome, hok⟩, -⟩
                rw [← Except.ok.inj houtcome] at hok
                exact absurd hok Bool.false_ne_true
          | true =>
              have hverified : At
                  (wake.enter .replayVerified
                    (Bridge.replayVerified wakeId call.request
                      (some stateHash)))
                  .replayVerified k :=
                h.enter _ _ (by decide) rfl
              obtain ⟨k', hreturns, hk'⟩ :=
                deriveAndConclude_verified hverified rfl hforce hrun
              refine ⟨k', hreturns, hk'.trans ?_⟩
              constructor
              · rintro ⟨hk, hpanic, hmsc⟩
                exact ⟨hk, hpanic, rfl, ⟨_, rfl, rfl⟩, hmsc⟩
              · rintro ⟨hk, hpanic, -, -, hmsc⟩
                exact ⟨hk, hpanic, hmsc⟩

theorem runWakeCycle_returns (hrun : runWakeCycle env call = .ok out) :
    ∃ profile k, getProfile env call.request.profile = .ok profile ∧
      Returns call profile out k ∧
      (k = 0 ↔ StaysOnPathAs env call profile) := by
  unfold runWakeCycle at hrun
  dsimp only at hrun
  generalize env.host.stableId "els_wake"
    [call.request.agentId, call.request.profile, call.clockNow] =
      wakeId at hrun
  cases hprofile : getProfile env call.request.profile with
  | error e =>
      rw [hprofile] at hrun
      cases hrun
  | ok profile =>
      rw [hprofile] at hrun
      simp only [bind, Except.bind, pure, Except.pure] at hrun
      refine ⟨profile, ?_⟩
      have hrequested : At
          (Wake.enter (Journal.start .cold) .wakeRequested
            (Bridge.wakeRequested wakeId call.request)) .wakeRequested 0 :=
        at_start.enter _ _ (by decide) rfl
      have hstarted := hrequested.enter .processStarted
        (Bridge.processStarted wakeId call.request) (by decide) rfl
      have hloaded := hstarted.enter .configLoaded
        (Bridge.configLoaded wakeId call.request) (by decide) rfl
      have hbound := hloaded.enter .identityBound
        (Bridge.identityBound wakeId call.request) (by decide) rfl
      split at hrun
      · rename_i hdisabled
        obtain rfl := Except.ok.inj hrun
        refine ⟨0, rfl, refuseEarly_returns profile _ _ hrequested (by decide),
          ?_⟩
        simpa [StaysOnPathAs] using Or.inl hdisabled
      split at hrun
      · rename_i hidentity
        obtain rfl := Except.ok.inj hrun
        refine ⟨0, rfl, refuseEarly_returns profile _ _ hloaded (by decide),
          ?_⟩
        have hmissing : call.request.agentId = "" ∧
            "identity_bound" ∈ profile.requiredChecks := by
          simpa using hidentity
        exact iff_of_true rfl (Or.inr (Or.inl hmissing))
      split at hrun
      · rename_i hbus
        obtain rfl := Except.ok.inj hrun
        refine ⟨0, rfl, refuseEarly_returns profile _ _ hbound (by decide), ?_⟩
        exact iff_of_true rfl
          (Or.inr (Or.inr (Or.inl (Option.isNone_iff_eq_none.mp hbus))))
      · rename_i henabled hidentity hbus
        obtain ⟨k, hat, hk⟩ := headRead_at call wakeId
        obtain ⟨k', hreturns, hk'⟩ := replayAndConclude_returns hat hrun
        refine ⟨k', rfl, hreturns, hk'.trans ?_⟩
        have hconfig : call.config.enabled ≠ false := by simpa using henabled
        have hbound : ¬(call.request.agentId = "" ∧
            "identity_bound" ∈ profile.requiredChecks) := by
          simpa using hidentity
        have hconnected : call.bus ≠ none := by simpa using hbus
        unfold StaysOnPathAs HandsInNoReport
        rw [hk]
        constructor
        · rintro ⟨hysr, hpanic, hforce, hverified, hmsc⟩
          exact Or.inr (Or.inr (Or.inr
            ⟨hpanic, hforce, hverified, hysr, hmsc⟩))
        · rintro (hoff | hidentity | hbus |
            ⟨hpanic, hforce, hverified, hysr, hmsc⟩)
          · exact absurd hoff hconfig
          · exact absurd hidentity hbound
          · exact absurd hbus hconnected
          · exact ⟨hysr, hpanic, hforce, hverified, hmsc⟩

end Cycle

/-- A wake that returns follows the declared machine, with path, drafts, final
state and work admission, exactly when it is refused before the event head is
read, or replay verifies the log, no panic is active and the drafts handed in
report no state of their own. -/
theorem wake_follows_machine_iff
    {env : WakeEnv} {call : WakeCall} {drafts : List Draft}
    {result : WakeResult}
    (hrun : runWakeCycle env call = .ok (drafts, result)) :
    FollowsMachine env call drafts result ↔ StaysOnPath env call := by
  obtain ⟨profile, k, hprofile, hreturns, hk⟩ := runWakeCycle_returns hrun
  have hfollows := hreturns.follows_iff hprofile
  exact hfollows.trans (hk.trans (staysOnPath_iff hprofile).symm)

/-! ## Two concrete wakes -/

def plainEnv : WakeEnv where
  host := referenceHost
  environ := fun _ => none
  exists? := fun _ => true
  repr := fun text => "'" ++ text ++ "'"
  replay := fun _ => .ok { ok := true, stateHash := "sha256:initial" }
  initialStateHash := "sha256:initial"

def maintenanceCall : WakeCall where
  config := { enabled := true }
  request :=
    { agentId := "keeper"
      profile := "maintenance_subagent"
      scope := ["logs"] }
  bus := some { nextSeq := some 0 }
  runtimeDir := some "/runtime"
  clockNow := "2026-06-12T14:00:01.000000Z"

def outline :
    Except PyError (List Draft × WakeResult) →
      Option (Bool × WakeState × List WakeState)
  | .ok (_, result) =>
      some (result.workAdmissionOpen, result.finalState, result.statesVisited)
  | .error _ => none

theorem outline_eq_some
    {run : Except PyError (List Draft × WakeResult)}
    {view : Bool × WakeState × List WakeState}
    (h : outline run = some view) :
    ∃ drafts result, run = .ok (drafts, result) ∧
      (result.workAdmissionOpen, result.finalState, result.statesVisited) =
        view := by
  cases run with
  | error e => cases h
  | ok out => exact ⟨out.1, out.2, rfl, Option.some.inj h⟩

/-- The maintenance wake follows the machine into work admission. -/
theorem wake_follows_machine_iff_maintenance :
    ∃ drafts result,
      runWakeCycle plainEnv maintenanceCall = .ok (drafts, result) ∧
      result.workAdmissionOpen = true ∧
      FollowsMachine plainEnv maintenanceCall drafts result := by
  have hview : outline (runWakeCycle plainEnv maintenanceCall) =
      some (true, .workAdmissionOpen,
        [.cold, .wakeRequested, .processStarted, .configLoaded,
          .identityBound, .eventBusConnected, .eventHeadRead, .replayVerified,
          .worldStateDerived, .memoryContextLoaded, .postureSelected,
          .capabilityCatalogLoaded, .readyDeclared, .workAdmissionOpen]) := by
    decide +kernel
  have hstays : StaysOnPath plainEnv maintenanceCall := by
    have hprofile : ∃ profile,
        getProfile plainEnv maintenanceCall.request.profile = .ok profile :=
      ⟨_, rfl⟩
    obtain ⟨profile, hprofile⟩ := hprofile
    refine ⟨profile, hprofile, Or.inr (Or.inr (Or.inr
      ⟨rfl, rfl, ⟨_, rfl, rfl⟩, ?_⟩))⟩
    exact ⟨fun _ _ => rfl, fun _ _ => rfl⟩
  obtain ⟨drafts, result, hrun, hresult⟩ := outline_eq_some hview
  exact ⟨drafts, result, hrun, congrArg Prod.fst hresult,
    (wake_follows_machine_iff hrun).mpr hstays⟩

/-- With replay failing and mismatches not refused, the same wake opens work
admission although its path ends in `REPLAY_FAILED`. -/
theorem wake_leaves_machine :
    ∃ drafts result,
      runWakeCycle plainEnv
          { maintenanceCall with
            config := { enabled := true, refuseOnReplayMismatch := false }
            replayForceFail := true } = .ok (drafts, result) ∧
        result.workAdmissionOpen = true ∧
        result.finalState = .workAdmissionOpen ∧
        result.statesVisited.getLast? = some .replayFailed ∧
        ¬FollowsMachine plainEnv
          { maintenanceCall with
            config := { enabled := true, refuseOnReplayMismatch := false }
            replayForceFail := true } drafts result := by
  have hview : outline (runWakeCycle plainEnv
      { maintenanceCall with
        config := { enabled := true, refuseOnReplayMismatch := false }
        replayForceFail := true }) =
      some (true, .workAdmissionOpen,
        [.cold, .wakeRequested, .processStarted, .configLoaded,
          .identityBound, .eventBusConnected, .eventHeadRead,
          .replayFailed]) := by
    decide +kernel
  obtain ⟨drafts, result, hrun, hresult⟩ := outline_eq_some hview
  obtain ⟨hopen, hfinal, hvisited⟩ :
      result.workAdmissionOpen = true ∧
        result.finalState = .workAdmissionOpen ∧
        result.statesVisited = [.cold, .wakeRequested, .processStarted,
          .configLoaded, .identityBound, .eventBusConnected, .eventHeadRead,
          .replayFailed] := by
    simpa only [Prod.mk.injEq] using hresult
  have hlast : result.statesVisited.getLast? = some .replayFailed := by
    rw [hvisited]
    rfl
  refine ⟨drafts, result, hrun, hopen, hfinal, hlast, ?_⟩
  intro hfollows
  have hends := hfollows.ends
  rw [hlast, hfinal] at hends
  exact absurd (Option.some.inj hends) (by decide)

end Hydrogenuine.Emergence
