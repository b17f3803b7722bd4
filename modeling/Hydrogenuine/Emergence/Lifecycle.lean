import Hydrogenuine.Emergence.Readiness
import Hydrogenuine.Runtime.Contract
import Hydrogenuine.Support.Journal

/-!
# The wake lifecycle

Embedding of `hg_runtime/emergence/lifecycle.py` and of the drafts of
`rtc_bridge.py`.  A wake is a journal over the declared transitions: `advance`
moves only along them, and a draft is appended whether or not the move was
made.  The wake therefore visits a path of the machine in every run, and the
question is whether its drafts and its result follow that path.
-/

namespace Hydrogenuine.Emergence

open Support Hydrogenuine.Core Hydrogenuine.Runtime

/-! ## States and transitions -/

/-- The states of `ALLOWED_TRANSITIONS`. -/
inductive WakeState where
  | cold
  | wakeRequested
  | processStarted
  | configLoaded
  | identityBound
  | eventBusConnected
  | eventHeadRead
  | replayVerified
  | replayFailed
  | worldStateDerived
  | memoryContextLoaded
  | postureSelected
  | capabilityCatalogLoaded
  | quietSettlingOptional
  | readyDeclared
  | degradedReadyDeclared
  | safeModeEntered
  | wakeRefused
  | wakeFailed
  | workAdmissionOpen
deriving DecidableEq

def allowedTransitions : WakeState → List WakeState
  | .cold => [.wakeRequested]
  | .wakeRequested => [.processStarted, .wakeRefused]
  | .processStarted => [.configLoaded, .wakeFailed]
  | .configLoaded => [.identityBound, .wakeRefused]
  | .identityBound => [.eventBusConnected, .wakeRefused]
  | .eventBusConnected => [.eventHeadRead, .wakeRefused]
  | .eventHeadRead => [.replayVerified, .replayFailed, .wakeRefused]
  | .replayVerified => [.worldStateDerived, .safeModeEntered]
  | .replayFailed => [.safeModeEntered, .wakeRefused]
  | .worldStateDerived => [.memoryContextLoaded, .wakeRefused]
  | .memoryContextLoaded => [.postureSelected, .wakeRefused]
  | .postureSelected => [.capabilityCatalogLoaded, .wakeRefused]
  | .capabilityCatalogLoaded =>
      [.quietSettlingOptional, .readyDeclared, .degradedReadyDeclared,
        .wakeRefused]
  | .quietSettlingOptional =>
      [.readyDeclared, .degradedReadyDeclared, .wakeRefused]
  | .readyDeclared => [.workAdmissionOpen]
  | .degradedReadyDeclared => [.workAdmissionOpen]
  | .safeModeEntered => []
  | .wakeRefused => []
  | .wakeFailed => []
  | .workAdmissionOpen => []

def forbiddenTransitions : List (WakeState × WakeState) :=
  [(.cold, .readyDeclared), (.processStarted, .workAdmissionOpen),
    (.identityBound, .workAdmissionOpen),
    (.eventBusConnected, .readyDeclared), (.wakeFailed, .workAdmissionOpen),
    (.wakeRefused, .workAdmissionOpen)]

def canTransition (fromState toState : WakeState) : Bool :=
  if forbiddenTransitions.contains (fromState, toState) then false
  else (allowedTransitions fromState).contains toState

theorem canTransition_iff (fromState toState : WakeState) :
    canTransition fromState toState = true ↔
      toState ∈ allowedTransitions fromState := by
  cases fromState <;> cases toState <;> decide

/-! ## Drafts -/

/-- The payload of most drafts: the wake, the agent and further items. -/
def agentPayload
    (wakeId : String) (request : WakeRequest)
    (items : List (String × PyVal)) : List (String × PyVal) :=
  [("wake_id", .str wakeId), ("agent_id", .str request.agentId)] ++ items ++
    [("observation_only", .bool true)]

/-- `draft` as the bridge calls it. -/
def bridgeDraft (type : String) (payload : List (String × PyVal)) : Draft where
  type := type
  payload := payload
  causalParents := []

def ofNumber : Option ℤ → PyVal
  | some n => .int n
  | none => .none

def WakeRequest.toPayload (request : WakeRequest) : List (String × PyVal) :=
  [("agent_id", .str request.agentId), ("profile", .str request.profile),
    ("operator_id", .ofOption request.operatorId),
    ("parent_agent_id", .ofOption request.parentAgentId),
    ("task_id", .ofOption request.taskId),
    ("scope", .ofStrings request.scope),
    ("reason_code", .str request.reasonCode)]

def ReadinessCheck.toPayload (check : ReadinessCheck) :
    List (String × PyVal) :=
  [("check_id", .str check.checkId), ("name", .str check.name),
    ("required_for_profile", .bool check.requiredForProfile),
    ("status", .str check.status.text),
    ("reason_code", .ofOption check.reasonCode),
    ("evidence_ref", .ofOption check.evidenceRef),
    ("started_at", .ofOption check.startedAt),
    ("completed_at", .ofOption check.completedAt),
    ("check_hash", .ofOption check.checkHash)]

namespace Bridge

variable (wakeId : String) (request : WakeRequest)

def wakeRequested : Draft :=
  bridgeDraft "ELS_WAKE_REQUESTED"
    (("wake_id", .str wakeId) :: request.toPayload ++
      [("observation_only", .bool true)])

def processStarted : Draft :=
  bridgeDraft "ELS_PROCESS_STARTED" (agentPayload wakeId request [])

def configLoaded : Draft :=
  bridgeDraft "ELS_CONFIG_LOADED"
    [("wake_id", .str wakeId), ("profile", .str request.profile),
      ("observation_only", .bool true)]

def identityBound : Draft :=
  bridgeDraft "ELS_IDENTITY_BOUND"
    (agentPayload wakeId request
      [("operator_id", .ofOption request.operatorId)])

def eventBusConnected : Draft :=
  bridgeDraft "ELS_EVENT_BUS_CONNECTED" (agentPayload wakeId request [])

def eventHeadRead (eventHeadSeq : Option ℤ) : Draft :=
  bridgeDraft "ELS_EVENT_HEAD_READ"
    (agentPayload wakeId request [("event_head_seq", ofNumber eventHeadSeq)])

def replayVerified (replayHash : Option String) : Draft :=
  bridgeDraft "ELS_REPLAY_VERIFIED"
    (agentPayload wakeId request [("replay_hash", .ofOption replayHash)])

def replayFailed (reason : String) : Draft :=
  bridgeDraft "ELS_REPLAY_FAILED"
    (agentPayload wakeId request [("reason_code", .str reason)])

def worldStateDerived (stateHash : String) : Draft :=
  bridgeDraft "ELS_WORLD_STATE_DERIVED"
    (agentPayload wakeId request [("world_state_hash", .str stateHash)])

def memoryContextLoaded (status : CheckStatus) : Draft :=
  bridgeDraft "ELS_MEMORY_CONTEXT_LOADED"
    (agentPayload wakeId request [("status", .str status.text)])

def readinessCheckRecorded (check : ReadinessCheck) : Draft :=
  bridgeDraft "ELS_READINESS_CHECK_RECORDED"
    [("wake_id", .str wakeId), ("check", .dict check.toPayload),
      ("observation_only", .bool true)]

def postureSelected (posture : StartupPosture) : Draft :=
  bridgeDraft "ELS_POSTURE_SELECTED"
    (agentPayload wakeId request [("posture", .str posture.text)])

def capabilityCatalogLoaded : Draft :=
  bridgeDraft "ELS_CAPABILITY_CATALOG_LOADED"
    (agentPayload wakeId request [("metadata_only", .bool true)])

def quietSettlingStarted : Draft :=
  bridgeDraft "ELS_QUIET_SETTLING_STARTED" (agentPayload wakeId request [])

def quietSettlingCompleted : Draft :=
  bridgeDraft "ELS_QUIET_SETTLING_COMPLETED" (agentPayload wakeId request [])

def readyDeclared (posture : StartupPosture) : Draft :=
  bridgeDraft "ELS_READY_DECLARED"
    (agentPayload wakeId request [("posture", .str posture.text)])

def degradedReadyDeclared (posture : StartupPosture) : Draft :=
  bridgeDraft "ELS_DEGRADED_READY_DECLARED"
    (agentPayload wakeId request
      [("posture", .str posture.text), ("degraded", .bool true)])

def workAdmissionOpened (posture : StartupPosture) : Draft :=
  bridgeDraft "ELS_WORK_ADMISSION_OPENED"
    (agentPayload wakeId request [("posture", .str posture.text)])

def wakeRefused (reason : String) : Draft :=
  bridgeDraft "ELS_WAKE_REFUSED"
    (agentPayload wakeId request [("reason_code", .str reason)])

def safeModeEntered (reason : String) : Draft :=
  bridgeDraft "ELS_SAFE_MODE_ENTERED"
    (agentPayload wakeId request [("reason_code", .str reason)])

end Bridge

/-- The draft types that report the entering of a state.  A recorded check and
the end of the quiet settling report none. -/
def stateReports : List (String × WakeState) :=
  [("ELS_WAKE_REQUESTED", .wakeRequested),
    ("ELS_PROCESS_STARTED", .processStarted),
    ("ELS_CONFIG_LOADED", .configLoaded),
    ("ELS_IDENTITY_BOUND", .identityBound),
    ("ELS_EVENT_BUS_CONNECTED", .eventBusConnected),
    ("ELS_EVENT_HEAD_READ", .eventHeadRead),
    ("ELS_REPLAY_VERIFIED", .replayVerified),
    ("ELS_REPLAY_FAILED", .replayFailed),
    ("ELS_WORLD_STATE_DERIVED", .worldStateDerived),
    ("ELS_MEMORY_CONTEXT_LOADED", .memoryContextLoaded),
    ("ELS_POSTURE_SELECTED", .postureSelected),
    ("ELS_CAPABILITY_CATALOG_LOADED", .capabilityCatalogLoaded),
    ("ELS_QUIET_SETTLING_STARTED", .quietSettlingOptional),
    ("ELS_READY_DECLARED", .readyDeclared),
    ("ELS_DEGRADED_READY_DECLARED", .degradedReadyDeclared),
    ("ELS_SAFE_MODE_ENTERED", .safeModeEntered),
    ("ELS_WAKE_REFUSED", .wakeRefused),
    ("ELS_WAKE_FAILED", .wakeFailed),
    ("ELS_WORK_ADMISSION_OPENED", .workAdmissionOpen)]

def reportedState (draft : Draft) : Option WakeState :=
  stateReports.lookup draft.type

def reportedStates (drafts : List Draft) : List WakeState :=
  Journal.named reportedState drafts

theorem reportedState_ne_cold (draft : Draft) :
    reportedState draft ≠ some .cold := by
  intro h
  obtain ⟨before, after, heq, -⟩ := List.lookup_eq_some_iff.mp h
  have hmem : (draft.type, WakeState.cold) ∈ stateReports := by
    rw [heq]
    exact List.mem_append_right _ List.mem_cons_self
  simp [stateReports] at hmem

theorem reportedStates_checks
    (wakeId : String) (checks : List ReadinessCheck) :
    reportedStates (checks.map (Bridge.readinessCheckRecorded wakeId)) = [] := by
  refine List.filterMap_eq_nil_iff.mpr fun draft hdraft => ?_
  obtain ⟨check, -, rfl⟩ := List.mem_map.mp hdraft
  rfl

/-! ## The wake cycle -/

/-- What a wake reads of its configuration. -/
structure ELSConfig where
  enabled : Bool := false
  allowQuietSettling : Bool := false
  refuseOnReplayMismatch : Bool := true
  ysrOnStaleScratch : Bool := true

structure WakeResult where
  wakeId : String
  agentId : String
  profile : String
  finalState : WakeState
  posture : StartupPosture
  verdict : ReadinessVerdict
  workAdmissionOpen : Bool
  checks : List ReadinessCheck := []
  statesVisited : List WakeState := []
  eventHeadSeq : Option ℤ := none
  worldStateHash : Option String := none
  refusalReason : Option String := none
  authorityFreshened : Bool := false

/-- The arguments of `run_wake_cycle`.  For the two lists of drafts handed in,
`None` is the empty list. -/
structure WakeCall where
  config : ELSConfig
  request : WakeRequest
  bus : Option WakeBus
  runtimeDir : Option String
  clockNow : String
  panicActive : Bool := false
  lockdownActive : Bool := false
  memoryAvailable : Bool := true
  staleScratch : Bool := false
  crrRecoveryMarker : Bool := false
  crrSnapshotHash : Option String := none
  expectedWorldStateHash : Option String := none
  replayForceFail : Bool := false
  ysrDrafts : List Draft := []
  mscDrafts : List Draft := []

def buildContext (env : WakeEnv) (call : WakeCall) : ReadinessContext where
  runtimeDir := call.runtimeDir
  bus := call.bus
  agentId := call.request.agentId
  scope := call.request.scope
  panicActive := call.panicActive
  lockdownActive := call.lockdownActive
  memoryAvailable := call.memoryAvailable
  oeaReal := (env.environ "HG_OEA_REAL").getD "0" == "1"
  oeaAvailable := (env.environ "HG_OEA_REAL").getD "0" != "1" ||
    (env.environ "HG_OEA_AVAILABLE").getD "0" == "1"
  liveCognition := (env.environ "HG_RTC_COGNITION_LIVE").getD "0" == "1"
  liveProviderOk := (env.environ "HG_RTC_COGNITION_LIVE").getD "0" == "1" &&
    isText (env.environ "HG_COGNITION_PROVIDER_URL")
  secretsRedaction := true
  crrRecoveryMarker := call.crrRecoveryMarker
  crrSnapshotHash := call.crrSnapshotHash
  expectedWorldStateHash := call.expectedWorldStateHash
  replayForceFail := call.replayForceFail
  clockNow := call.clockNow

abbrev Wake : Type := Journal WakeState Draft

/-- `advance(s)` followed by `drafts.append(d)`. -/
def Wake.enter (wake : Wake) (s : WakeState) (d : Draft) : Wake :=
  Journal.enter canTransition wake s d

/-- The exits of `run_wake_cycle` before the event head is read. -/
def refuseEarly
    (call : WakeCall) (wakeId : String) (wake : Wake) (reason : String) :
    List Draft × WakeResult :=
  let wake : Wake := wake.enter .wakeRefused
    (Bridge.wakeRefused wakeId call.request reason)
  (wake.entries,
    { wakeId := wakeId
      agentId := call.request.agentId
      profile := call.request.profile
      finalState := .wakeRefused
      posture := .offlineReplayOnly
      verdict := .refused
      workAdmissionOpen := false
      statesVisited := wake.visited
      refusalReason := some reason })

/-- The exit of `run_wake_cycle` on a replay mismatch that is to be refused. -/
def refuseMismatch
    (env : WakeEnv) (call : WakeCall) (profile : WakeProfile)
    (wakeId : String) (head : Option ℤ) (wake : Wake) :
    Except PyError (List Draft × WakeResult) := do
  let ctx := buildContext env call
  let wake : Wake := wake.enter .safeModeEntered
    (Bridge.safeModeEntered wakeId call.request "REPLAY_MISMATCH")
  let checks ← runAllChecks env profile ctx
  let wake : Wake := wake.note (checks.map (Bridge.readinessCheckRecorded wakeId))
  let posture := selectPosture profile checks .safeMode ctx
  let wake : Wake := wake.enter .wakeRefused
    (Bridge.wakeRefused wakeId call.request "REPLAY_MISMATCH")
  return (wake.entries,
    { wakeId := wakeId
      agentId := call.request.agentId
      profile := call.request.profile
      finalState := .wakeRefused
      posture := posture
      verdict := .safeMode
      workAdmissionOpen := false
      checks := checks
      statesVisited := wake.visited
      eventHeadSeq := head
      refusalReason := some "REPLAY_MISMATCH" })

/-- The quiet settling, when it is configured and there is something to
settle. -/
def quietSettle
    (call : WakeCall) (profile : WakeProfile) (wakeId : String)
    (wake : Wake) : Wake :=
  if call.config.allowQuietSettling && profile.allowQuietSettling &&
      !call.mscDrafts.isEmpty then
    (((wake.enter .quietSettlingOptional
      (Bridge.quietSettlingStarted wakeId call.request)).note
        call.mscDrafts).note
          [Bridge.quietSettlingCompleted wakeId call.request])
  else wake

/-- The two last exits of `run_wake_cycle`: refusal by the verdict, or work
admission. -/
def conclude
    (call : WakeCall) (wakeId : String) (head : Option ℤ)
    (stateHash : String) (checks : List ReadinessCheck)
    (verdict : ReadinessVerdict) (refusalReason : Option String)
    (posture : StartupPosture) (wake : Wake) : List Draft × WakeResult :=
  let reason := refusalReason.getD ""
  if (verdict = .refused ∨ verdict = .failed ∨ verdict = .safeMode) ∧
      isText refusalReason = true then
    let wake : Wake := if verdict = .safeMode then
        wake.enter .safeModeEntered
          (Bridge.safeModeEntered wakeId call.request reason)
      else wake
    let wake : Wake := wake.enter .wakeRefused
      (Bridge.wakeRefused wakeId call.request reason)
    (wake.entries,
      { wakeId := wakeId
        agentId := call.request.agentId
        profile := call.request.profile
        finalState := .wakeRefused
        posture := posture
        verdict := verdict
        workAdmissionOpen := false
        checks := checks
        statesVisited := wake.visited
        eventHeadSeq := head
        worldStateHash := some stateHash
        refusalReason := refusalReason })
  else
    let wake : Wake := if verdict = .degradedReady then
        wake.enter .degradedReadyDeclared
          (Bridge.degradedReadyDeclared wakeId call.request posture)
      else
        wake.enter .readyDeclared
          (Bridge.readyDeclared wakeId call.request posture)
    let wake : Wake := wake.enter .workAdmissionOpen
      (Bridge.workAdmissionOpened wakeId call.request posture)
    (wake.entries,
      { wakeId := wakeId
        agentId := call.request.agentId
        profile := call.request.profile
        finalState := .workAdmissionOpen
        posture := posture
        verdict := verdict
        workAdmissionOpen := true
        checks := checks
        statesVisited := wake.visited
        eventHeadSeq := head
        worldStateHash := some stateHash })

/-- `run_wake_cycle` from the drafting of `WORLD_STATE_DERIVED` on. -/
def deriveAndConclude
    (env : WakeEnv) (call : WakeCall) (profile : WakeProfile)
    (wakeId : String) (head : Option ℤ) (replayed : Option ReplayOutcome)
    (wake : Wake) : Except PyError (List Draft × WakeResult) := do
  let ctx := buildContext env call
  let stateHash := match replayed with
    | some outcome => outcome.stateHash
    | none => env.initialStateHash
  let replayOk := match replayed with
    | some outcome => outcome.ok
    | none => false
  let wake : Wake := wake.enter .worldStateDerived
    (Bridge.worldStateDerived wakeId call.request stateHash)
  let checks ← runAllChecks env profile ctx
  let wake : Wake := wake.note (checks.map (Bridge.readinessCheckRecorded wakeId))
  let memStatus :=
    match checks.find? fun c =>
      c.checkId == "memory_context_loaded_or_degraded" with
    | some c => c.status
    | none => .pass
  let wake : Wake := wake.enter .memoryContextLoaded
    (Bridge.memoryContextLoaded wakeId call.request memStatus)
  let (verdict, refusalReason) := aggregateVerdict checks profile
    call.panicActive call.lockdownActive (call.replayForceFail || !replayOk)
    call.config.refuseOnReplayMismatch
  let posture := selectPosture profile checks verdict ctx
  let wake : Wake := wake.enter .postureSelected
    (Bridge.postureSelected wakeId call.request posture)
  let wake : Wake := wake.enter .capabilityCatalogLoaded
    (Bridge.capabilityCatalogLoaded wakeId call.request)
  let wake : Wake := quietSettle call profile wakeId wake
  return conclude call wakeId head stateHash checks verdict refusalReason
    posture wake

/-- `run_wake_cycle` from the replay on. -/
def replayAndConclude
    (env : WakeEnv) (call : WakeCall) (profile : WakeProfile)
    (wakeId : String) (head : Option ℤ) (wake : Wake) :
    Except PyError (List Draft × WakeResult) := do
  let replayed ←
    if call.replayForceFail then pure none
    else some <$> env.replay call.runtimeDir
  match replayed with
  | some { ok := true, stateHash } =>
      let wake : Wake := wake.enter .replayVerified
        (Bridge.replayVerified wakeId call.request (some stateHash))
      deriveAndConclude env call profile wakeId head replayed wake
  | _ =>
      let wake : Wake := wake.enter .replayFailed
        (Bridge.replayFailed wakeId call.request "REPLAY_MISMATCH")
      if call.config.refuseOnReplayMismatch then
        refuseMismatch env call profile wakeId head wake
      else
        deriveAndConclude env call profile wakeId head replayed wake

def runWakeCycle (env : WakeEnv) (call : WakeCall) :
    Except PyError (List Draft × WakeResult) := do
  let request := call.request
  let wakeId := env.host.stableId "els_wake"
    [request.agentId, request.profile, call.clockNow]
  let profile ← getProfile env request.profile
  let wake : Wake := Journal.start .cold
  let wake : Wake := wake.enter .wakeRequested (Bridge.wakeRequested wakeId request)
  if !call.config.enabled then
    return refuseEarly call wakeId wake "els_disabled"
  let wake : Wake := wake.enter .processStarted
    (Bridge.processStarted wakeId request)
  let wake : Wake := wake.enter .configLoaded (Bridge.configLoaded wakeId request)
  if request.agentId == "" && profile.requiredChecks.contains "identity_bound"
      then
    return refuseEarly call wakeId wake "IDENTITY_MISSING"
  let wake : Wake := wake.enter .identityBound (Bridge.identityBound wakeId request)
  if call.bus.isNone then
    return refuseEarly call wakeId wake "EVENT_BUS_MISSING"
  let wake : Wake := wake.enter .eventBusConnected
    (Bridge.eventBusConnected wakeId request)
  let head := busHeadSeq call.bus
  let wake : Wake := wake.enter .eventHeadRead
    (Bridge.eventHeadRead wakeId request head)
  let wake : Wake :=
    if call.config.ysrOnStaleScratch && call.staleScratch &&
        !call.ysrDrafts.isEmpty then
      wake.note call.ysrDrafts
    else wake
  replayAndConclude env call profile wakeId head wake

end Hydrogenuine.Emergence
