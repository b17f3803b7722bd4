import Mathlib.Data.String.Basic
import Hydrogenuine.Core.Iam
import Hydrogenuine.Hal.Arbitration
import Hydrogenuine.Support.Machine
import Hydrogenuine.Support.Sourced
import Hydrogenuine.Support.Stateful
import Mathlib.Data.Finset.Sort

/-!
# The arbitration runtime

Embedding of `hg_hal/models.py`, `state.py`, `event_log.py`, `reducer.py`,
`validation.py`, `replay.py` and `runtime.py`, with the log in memory.  The secret
scanner is a parameter, and the operator registry is read again at every call.
-/

namespace Hydrogenuine.Hal

open Support Hydrogenuine.Core Hydrogenuine.Runtime

abbrev Items := List (String × PyVal)

/-! ## Models -/

inductive HalDecisionState where
  | propose
  | defer
  | requestClarification
  | routeToOperator
  | routeToGpp
  | routeToUeak
  | routeToSoar
  | reject
  | failClosed
  | unknown
deriving DecidableEq

def HalDecisionState.text : HalDecisionState → String
  | propose => "propose"
  | defer => "defer"
  | requestClarification => "request_clarification"
  | routeToOperator => "route_to_operator"
  | routeToGpp => "route_to_GPP"
  | routeToUeak => "route_to_UEAK"
  | routeToSoar => "route_to_SOAR"
  | reject => "reject"
  | failClosed => "fail_closed"
  | unknown => "unknown"

inductive HalRouteTarget where
  | none
  | gpp
  | ueak
  | soar
  | operator
deriving DecidableEq

def HalRouteTarget.text : HalRouteTarget → String
  | none => "none"
  | gpp => "GPP"
  | ueak => "UEAK"
  | soar => "SOAR"
  | operator => "operator"

structure HalDecisionReason where
  code : String
  detail : String

def HalDecisionReason.toPayload (reason : HalDecisionReason) : PyVal :=
  .dict [("code", .str reason.code), ("detail", .str reason.detail)]

structure HalRoute where
  target : HalRouteTarget
  routeRef : String
  decisionState : HalDecisionState

def HalRoute.toPayload (route : HalRoute) : PyVal :=
  .dict [
    ("target", .str route.target.text),
    ("route_ref", .str route.routeRef),
    ("decision_state", .str route.decisionState.text)]

structure HalArbitrationContext where
  requestId : String
  proposalRef : String
  contextRefs : List String
  identityRef : String
  admissionRef : String
  freshnessRef : String
  contradictions : List String
  aepMaxSeverity : ℤ
  soarBinding : Option ArbitrationRouting

def HalArbitrationContext.toPayload (context : HalArbitrationContext) : Items :=
  [("request_id", .str context.requestId),
    ("proposal_ref", .str context.proposalRef),
    ("context_refs", .ofStrings context.contextRefs),
    ("identity_ref", .str context.identityRef),
    ("admission_ref", .str context.admissionRef),
    ("freshness_ref", .str context.freshnessRef),
    ("contradictions", .ofStrings context.contradictions),
    ("aep_max_severity", .int context.aepMaxSeverity),
    ("soar_binding", .ofOption (context.soarBinding.map ArbitrationRouting.text))]

structure HalRequest where
  arbitration : ArbitrationRequest
  identityRef : String
  admissionRef : String
  freshnessRef : String
  approvalExpiresAt : Option String := none
  idempotencyKey : String := ""
  redactionRef : String := "sec:redaction_passed"
  redactionPayload : Option Items := none
  contradictions : List String := []

/-- `request.idempotency_key or request.arbitration.request_id`. -/
def HalRequest.idemKey (request : HalRequest) : String :=
  orText (some request.idempotencyKey) request.arbitration.requestId

def HalRequest.toPayload (request : HalRequest) : Items :=
  [("schema", .str "hal-request"),
    ("schema_version", .str "1.0"),
    ("arbitration", .dict request.arbitration.toPayload),
    ("identity_ref", .str request.identityRef),
    ("admission_ref", .str request.admissionRef),
    ("freshness_ref", .str request.freshnessRef),
    ("approval_expires_at", .ofOption request.approvalExpiresAt),
    ("idempotency_key", .str request.idemKey),
    ("redaction_ref", .str request.redactionRef),
    ("contradictions", .ofStrings request.contradictions)]

structure HalDecision where
  decisionId : String
  requestId : String
  decisionState : HalDecisionState
  route : HalRoute
  reasons : List HalDecisionReason
  arbitrationResult : Option ArbitrationResult
  selectedCandidateRef : Option String
  deferredCandidateRefs : List String
  contradictions : List String

/-- `ArbitrationResult.to_payload(include_hash=False)`. -/
def unhashedPayload (result : ArbitrationResult) : Items :=
  [("schema", .str "hal-arbitration-result"),
    ("schema_version", .str "1.0"),
    ("request_id", .str result.requestId),
    ("routing", .str result.routing.text),
    ("selected_candidate_ref", .ofOption result.selectedCandidateRef),
    ("reason_code", .str result.reasonCode),
    ("trace_refs", .ofStrings result.traceRefs),
    ("deferred_candidate_refs", .ofStrings result.deferredCandidateRefs)]

/-- `HalDecision.to_payload`; the hash is that of the other items. -/
def HalDecision.toPayload (host : Host) (decision : HalDecision) : Items :=
  let body : Items :=
    [("schema", .str "hal-decision"),
      ("schema_version", .str "1.0"),
      ("decision_id", .str decision.decisionId),
      ("request_id", .str decision.requestId),
      ("decision_state", .str decision.decisionState.text),
      ("route", decision.route.toPayload),
      ("reasons", .list (decision.reasons.map fun r => r.toPayload)),
      ("selected_candidate_ref", .ofOption decision.selectedCandidateRef),
      ("deferred_candidate_refs", .ofStrings decision.deferredCandidateRefs),
      ("contradictions", .ofStrings decision.contradictions)] ++
    match decision.arbitrationResult with
    | some result => [("arbitration", .dict (unhashedPayload result))]
    | none => []
  body ++ [("decision_hash", .str (host.canonicalHash (.dict body)))]

structure HalEvent where
  seq : ℕ
  eventType : String
  timestamp : String
  requestId : String
  payload : Items

structure HalPanicState where
  active : Bool := false
  enteredAt : Option String := none
  reasonCode : String := ""

def HalPanicState.toPayload (panic : HalPanicState) : PyVal :=
  .dict [
    ("active", .bool panic.active),
    ("entered_at", .ofOption panic.enteredAt),
    ("reason_code", .str panic.reasonCode)]

structure HalDegradedMode where
  active : Bool := false
  mode : String := "none"
  enteredAt : Option String := none

def HalDegradedMode.toPayload (degraded : HalDegradedMode) : PyVal :=
  .dict [
    ("active", .bool degraded.active),
    ("mode", .str degraded.mode),
    ("entered_at", .ofOption degraded.enteredAt)]

structure HalRuntimeState where
  seq : ℕ
  stateHash : String
  panic : HalPanicState
  degraded : HalDegradedMode
  processedIdempotencyKeys : Finset String
  lastDecisionId : Option String
  eventCount : ℕ

/-! ## State -/

def computeStateHash
    (host : Host) (seq : ℕ) (panic : HalPanicState) (degraded : HalDegradedMode)
    (processedIdempotencyKeys : Finset String) (lastDecisionId : Option String)
    (eventCount : ℕ) : String :=
  host.canonicalHash (.dict [
    ("seq", .int seq),
    ("panic", panic.toPayload),
    ("degraded", degraded.toPayload),
    ("processed_idempotency_keys",
      .ofStrings (processedIdempotencyKeys.sort (· ≤ ·))),
    ("last_decision_id", .ofOption lastDecisionId),
    ("event_count", .int eventCount)])

def initialState (host : Host) : HalRuntimeState where
  seq := 0
  stateHash := computeStateHash host 0 {} {} ∅ none 0
  panic := {}
  degraded := {}
  processedIdempotencyKeys := ∅
  lastDecisionId := none
  eventCount := 0

def reduce (host : Host) (state : HalRuntimeState) (event : HalEvent) :
    HalRuntimeState :=
  let get (key : String) (default : PyVal) : String :=
    host.str ((PyVal.item? event.payload key).getD default)
  let panic :=
    if event.eventType = "HAL_PANIC_ENTERED" then
      { active := true
        enteredAt := some event.timestamp
        reasonCode := get "reason_code" (.str "panic") : HalPanicState }
    else state.panic
  let degraded :=
    if event.eventType = "HAL_DEGRADED_MODE_ENTERED" then
      { active := true
        mode := get "mode" (.str "operator_only")
        enteredAt := some event.timestamp : HalDegradedMode }
    else state.degraded
  let processed :=
    if event.eventType = "HAL_REQUEST_RECEIVED" ∧
        get "idempotency_key" (.str "") ≠ "" then
      insert (get "idempotency_key" (.str "")) state.processedIdempotencyKeys
    else state.processedIdempotencyKeys
  let lastDecision :=
    if event.eventType ∈
        ["HAL_DECISION_PROPOSED", "HAL_FAILED_CLOSED", "HAL_REJECTED"] then
      some (get "decision_id" (.ofOption state.lastDecisionId))
    else state.lastDecisionId
  let eventCount := state.eventCount + 1
  { seq := event.seq
    stateHash :=
      computeStateHash host event.seq panic degraded processed lastDecision
        eventCount
    panic
    degraded
    processedIdempotencyKeys := processed
    lastDecisionId := lastDecision
    eventCount }

/-- `HalReducer.fold` from the initial state. -/
def fold (host : Host) (events : List HalEvent) : HalRuntimeState :=
  Sourced.replay (reduce host) HalEvent.seq (initialState host) events

/-! ## The log -/

/-- `HalEventLogAdapter` without a file; `seq` is the number of its last event. -/
structure HalEventLog where
  events : List HalEvent := []
  seq : ℕ := 0
  seq_eq : seq = events.length := by rfl

namespace HalEventLog

def nextSeq (log : HalEventLog) : ℕ := log.seq + 1

def append (log : HalEventLog) (event : HalEvent) : Except PyError HalEventLog :=
  if h : event.seq = log.seq + 1 then
    .ok
      { events := log.events ++ [event]
        seq := event.seq
        seq_eq := by
          rw [List.length_append, List.length_singleton, ← log.seq_eq]
          exact h }
  else
    .error (.valueError ("event seq " ++ toString event.seq ++ " != expected " ++
      toString (log.seq + 1)))

end HalEventLog

/-- `HalReplayVerifier.verify` of a log. -/
def verifyLog (host : Host) (log : HalEventLog) (expected : HalRuntimeState) :
    Bool × String × HalRuntimeState :=
  if log.events.isEmpty then (false, "empty event log", initialState host)
  else
    let replayed := fold host log.events
    let seqs := log.events.map HalEvent.seq
    if replayed.stateHash ≠ expected.stateHash then
      (false, "state_hash mismatch on replay", replayed)
    else if seqs ≠ seqs.insertionSort (· ≤ ·) ∨ ¬ seqs.Nodup then
      (false, "event ordering violation", replayed)
    else (true, "ok", replayed)

/-! ## Validation -/

def placeholderIdentity : List String :=
  ["", "placeholder", "unknown", "TBD", "operator_id"]

def modelPrefixes : List String := ["model:", "cognition:", "llm:", "srp:auto"]

def isMissingIdentity (identityRef : String) : Bool :=
  let raw := strip identityRef
  raw ∈ placeholderIdentity ||
    (startsWith raw "agent:" || raw == "agent:zero") ||
    modelPrefixes.any (startsWith (lower raw))

/-- `repr` of a text: what `repr` of the list of it shows between the brackets. -/
def reprText (host : Host) (text : String) : String :=
  let shown := (host.str (.list [.str text])).toList
  String.ofList ((shown.drop 1).take (shown.length - 2))

/-- The services around a runtime: the readings of the clock and the scanner of
secrets. -/
structure HalServices where
  host : Host
  clock : ℕ → String
  containsLeak : PyVal → Bool

/-- The check of `validate_hal_request` against the operator registry, which is
only read for an identity that is not missing. -/
def operatorReasons
    (registry : Except PyError OperatorRegistry) (identityRef : String) :
    Except PyError (List HalDecisionReason) :=
  if isMissingIdentity identityRef then pure []
  else do
    let auth := validateOperatorAuthority (← registry) identityRef "approve_change" ""
    return if auth.ok then []
      else [⟨"hal.denied.missing_identity", auth.reasonCode⟩]

def validateHalRequest
    (services : HalServices) (registry : Except PyError OperatorRegistry)
    (request : HalRequest) (now : String) (panicActive : Bool)
    (degradedMode : String) : Except PyError (List HalDecisionReason) := do
  let authority ← operatorReasons registry request.identityRef
  let admission := strip request.admissionRef
  let freshness := strip request.freshnessRef
  let redaction := strip request.redactionRef
  return (if panicActive then
      [⟨"hal.denied.panic_active", "panic blocks forward routing"⟩] else []) ++
    (if isMissingIdentity request.identityRef then
      [⟨"hal.denied.missing_identity", "IAM identity required"⟩] else []) ++
    authority ++
    (if admission ∈ ["", "adm:missing", "admission:missing"] then
      [⟨"hal.denied.missing_admission", "ADM admission required"⟩] else []) ++
    (if freshness ∈ ["", "tim:missing", "freshness:missing"] then
      [⟨"hal.denied.missing_freshness", "TIM freshness required"⟩] else []) ++
    (if isText request.approvalExpiresAt then
      let window :=
        validateApprovalWindow services.host request.approvalExpiresAt now
      if window.1 then []
      else [⟨"hal.denied.stale_approval", orText (some window.2) staleApproval⟩]
    else if endsWith freshness "stale" || freshness == "tim:stale" then
      [⟨"hal.denied.stale_approval", staleApproval⟩]
    else []) ++
    (if redaction ∈ ["", "sec:failed", "sec:redaction_failed"] then
      [⟨"hal.denied.redaction_failure", "SEC redaction evidence required"⟩]
    else
      match request.redactionPayload with
      | some payload =>
          if services.containsLeak (.dict payload) then
            [⟨"hal.denied.redaction_failure", "SEC redaction failure"⟩]
          else []
      | none => []) ++
    (if degradedMode ∉ ["none", ""] ∧ degradedMode ≠ "operator_only" then
      [⟨"hal.denied.authority_unknown",
        "unknown degraded mode " ++ reprText services.host degradedMode⟩]
    else [])

/-! ## The runtime -/

def mapResultToDecision
    (result : ArbitrationResult) (request : HalRequest) (degradedActive : Bool) :
    HalDecisionState × HalRoute × List HalDecisionReason :=
  let requestId := request.arbitration.requestId
  match result.routing with
  | .accept =>
      if degradedActive then
        (.routeToOperator,
          { target := .operator
            routeRef := "hal:operator:" ++ requestId
            decisionState := .routeToOperator },
          [⟨"hal.denied.degraded_blocks_route",
            "degraded mode routes to operator only"⟩])
      else
        (.routeToGpp,
          { target := .gpp
            routeRef := "hal:gpp:" ++ requestId
            decisionState := .routeToGpp }, [])
  | .defer =>
      (.defer,
        { target := .none
          routeRef := "hal:defer:" ++ requestId
          decisionState := .defer },
        [⟨"hal.defer.candidate", result.reasonCode⟩])
  | .reject =>
      let state : HalDecisionState :=
        if result.reasonCode ∈ ["soar_binding_reject", "capability_denied"] then
          .requestClarification
        else .reject
      (state,
        { target := .none
          routeRef := "hal:reject:" ++ requestId
          decisionState := state },
        [⟨"hal.reject", result.reasonCode⟩])
  | .noOp =>
      (.unknown,
        { target := .none
          routeRef := "hal:unknown:" ++ requestId
          decisionState := .unknown },
        [⟨"hal.unknown", result.reasonCode⟩])

/-- `HalRuntime`, with the number of readings of its clock so far. -/
structure HalRuntime where
  log : HalEventLog := {}
  state : HalRuntimeState
  readings : ℕ := 0

def HalRuntime.fresh (host : Host) : HalRuntime where
  state := initialState host

abbrev HalMethod := EStateM PyError HalRuntime

variable (services : HalServices)

def now : HalMethod String := do
  let runtime ← get
  set { runtime with readings := runtime.readings + 1 }
  return services.clock runtime.readings

def emit (eventType requestId : String) (payload : Items) : HalMethod HalEvent := do
  let seq := (← get).log.nextSeq
  let timestamp ← now services
  return { seq, eventType, timestamp, requestId, payload }

def emitAndFold (eventType requestId : String) (payload : Items) :
    HalMethod HalEvent := do
  let event ← emit services eventType requestId payload
  let log ← raising ((← get).log.append event)
  modify fun runtime =>
    { runtime with log, state := reduce services.host runtime.state event }
  return event

def enterPanic (reasonCode : String) : HalMethod HalEvent :=
  emitAndFold services "HAL_PANIC_ENTERED" "hal:panic"
    [("reason_code", .str reasonCode)]

def enterDegraded (mode : String) : HalMethod HalEvent :=
  emitAndFold services "HAL_DEGRADED_MODE_ENTERED" "hal:degraded"
    [("mode", .str mode)]

def failClosed
    (host : Host) (request : HalRequest) (reasons : List HalDecisionReason) :
    HalDecision where
  decisionId := "hal_fc_" ++
    slice (host.canonicalHash (.str request.arbitration.requestId)) 7 15
  requestId := request.arbitration.requestId
  decisionState := .failClosed
  route :=
    { target := .none
      routeRef := "hal:fail_closed:" ++ request.arbitration.requestId
      decisionState := .failClosed }
  reasons := reasons
  arbitrationResult := none
  selectedCandidateRef := none
  deferredCandidateRefs := []
  contradictions := request.contradictions

/-- The event that `_emit_decision_events` records a decision with. -/
def decisionEventType (state : HalDecisionState) : String :=
  match state with
  | .failClosed => "HAL_FAILED_CLOSED"
  | .reject => "HAL_REJECTED"
  | .requestClarification => "HAL_REJECTED"
  | _ => "HAL_DECISION_PROPOSED"

/-- The event of `_emit_decision_events` for the target of the route. -/
def emitRouteRequest (decision : HalDecision) (requestId : String) :
    HalMethod (List HalEvent) :=
  match decision.route.target with
  | .gpp => do
      let event ← emitAndFold services "HAL_GPP_ROUTE_REQUESTED" requestId
        [("decision_id", .str decision.decisionId),
          ("selected_candidate_ref", .ofOption decision.selectedCandidateRef),
          ("enforcement", .str "hal_routes_to_gpp_only_no_permit")]
      return [event]
  | .operator => do
      let event ← emitAndFold services "HAL_OPERATOR_REVIEW_REQUESTED" requestId
        [("decision_id", .str decision.decisionId)]
      return [event]
  | _ => return []

/-- The event of `_emit_decision_events` for a direct route to execution. -/
def emitContainment (decision : HalDecision) (requestId : String) :
    HalMethod (List HalEvent) :=
  if decision.decisionState = .routeToUeak then do
    let event ← emitAndFold services "HAL_AUTHORITY_CONVERSION_CONTAINED" requestId
      [("attempted", .str "HAL_UEAK_ROUTE_REQUESTED")]
    return [event]
  else return []

def emitDecisionEvents (decision : HalDecision) (request : HalRequest) :
    HalMethod (List HalEvent) := do
  let requestId := request.arbitration.requestId
  let decided ← emitAndFold services (decisionEventType decision.decisionState)
    requestId (decision.toPayload services.host)
  let selected ← emitAndFold services "HAL_ROUTE_SELECTED" requestId
    [("decision_id", .str decision.decisionId),
      ("route", decision.route.toPayload),
      ("contradictions", .ofStrings decision.contradictions)]
  let routed ← emitRouteRequest services decision requestId
  let contained ← emitContainment services decision requestId
  return [decided, selected] ++ routed ++ contained

/-- The context that `process` builds for a request. -/
def contextOf (request : HalRequest) : HalArbitrationContext where
  requestId := request.arbitration.requestId
  proposalRef := request.arbitration.proposalRef
  contextRefs := request.arbitration.contextRefs
  identityRef := request.identityRef
  admissionRef := request.admissionRef
  freshnessRef := request.freshnessRef
  contradictions := request.contradictions
  aepMaxSeverity := request.arbitration.aepMaxSeverity
  soarBinding := request.arbitration.soarBinding

/-- The part of `process` behind the validation. -/
def arbitrateRequest (now : String) (request : HalRequest) :
    HalMethod (HalDecision × List HalEvent) := do
  let requestId := request.arbitration.requestId
  let started ← emitAndFold services "HAL_ARBITRATION_STARTED" requestId
    [("proposal_ref", .str request.arbitration.proposalRef)]
  let result := arbitrate request.arbitration
  let (decisionState, route, reasons) :=
    mapResultToDecision result request (← get).state.degraded.active
  if route.target = .ueak then
    let contained ← emitAndFold services "HAL_AUTHORITY_CONVERSION_CONTAINED" requestId
      [("attempted_target", .str "UEAK"),
        ("reason", .str "hal.denied.ueak_direct_route_forbidden")]
    let decision := failClosed services.host request
      [⟨"hal.denied.ueak_direct_route_forbidden",
        "HAL cannot route directly to UEAK"⟩]
    let decided ← emitDecisionEvents services decision request
    return (decision, [started, contained] ++ decided)
  else
    let decision : HalDecision :=
      { decisionId := "hal_dec_" ++
          slice (services.host.canonicalHash (.str (requestId ++ now))) 7 19
        requestId
        decisionState
        route
        reasons
        arbitrationResult := some result
        selectedCandidateRef := result.selectedCandidateRef
        deferredCandidateRefs := result.deferredCandidateRefs
        contradictions := request.contradictions }
    let decided ← emitDecisionEvents services decision request
    return (decision, [started] ++ decided)

/-- `process`. -/
def processRequest
    (registry : Except PyError OperatorRegistry) (request : HalRequest) :
    HalMethod (HalDecision × List HalEvent) := do
  let now ← now services
  if request.idemKey ∈ (← get).state.processedIdempotencyKeys then
    let decision := failClosed services.host request
      [⟨"hal.denied.duplicate_request", "duplicate idempotency key"⟩]
    let decided ← emitDecisionEvents services decision request
    return (decision, decided)
  else
    let requestId := request.arbitration.requestId
    let received ← emitAndFold services "HAL_REQUEST_RECEIVED" requestId
      (PyVal.setItem request.toPayload "idempotency_key" (.str request.idemKey))
    let state := (← get).state
    let denyReasons ← raising (validateHalRequest services registry request now
      state.panic.active
      (if state.degraded.active then state.degraded.mode else "none"))
    let built ← emitAndFold services "HAL_CONTEXT_BUILT" requestId
      (contextOf request).toPayload
    if denyReasons ≠ [] then
      let decision := failClosed services.host request denyReasons
      let decided ← emitDecisionEvents services decision request
      return (decision, [received, built] ++ decided)
    else
      let (decision, decided) ← arbitrateRequest services now request
      return (decision, [received, built] ++ decided)

def verifyReplay : HalMethod (Bool × String) := do
  let runtime ← get
  let (ok, reason, replayed) := verifyLog services.host runtime.log runtime.state
  if ok then
    let _ ← emitAndFold services "HAL_REPLAY_VERIFIED" "hal:replay"
      [("state_hash", .str replayed.stateHash),
        ("event_count", .int replayed.eventCount)]
    return (ok, reason)
  else return (ok, reason)

/-! ## Runs -/

/-- The calls of a runtime.  A request comes with what the operator registry loads
as when it is processed. -/
inductive HalOperation where
  | process (registry : Except PyError OperatorRegistry) (request : HalRequest)
  | enterPanic (reasonCode : String)
  | enterDegraded (mode : String)
  | verifyReplay

def perform : HalOperation → HalMethod (Option HalDecision)
  | .process registry request => do
      let (decision, _) ← processRequest services registry request
      return some decision
  | .enterPanic reasonCode => do
      let _ ← enterPanic services reasonCode
      return none
  | .enterDegraded mode => do
      let _ ← enterDegraded services mode
      return none
  | .verifyReplay => do
      let _ ← verifyReplay services
      return none

def halMachine : Machine HalRuntime HalOperation (Option HalDecision) where
  step runtime op :=
    (finalState (perform services op) runtime,
      match outcome (perform services op) runtime with
      | .ok decision => decision
      | .error _ => none)

end Hydrogenuine.Hal
