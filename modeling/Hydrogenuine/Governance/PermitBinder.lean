import Hydrogenuine.Governance.CapabilityRegistry
import Hydrogenuine.Runtime.Contract
import Hydrogenuine.Support.Stateful

/-!
# The permit binder

Embedding of `hg_core/governance/permit_binder.py` with its types and of
`hg_core/governance/rtc_bridge.py`.  The binder looks up the decision and the
capability and answers with a permit or with a denial; a permit needs a trace
record.  The trace emitter appends to a file and is a parameter: what it
answers to its `n`-th call is arbitrary.
-/

namespace Hydrogenuine.Governance

open Support Hydrogenuine.Core Hydrogenuine.Runtime

/-! ## Types -/

structure TraceRef where
  tracePath : String
  traceSeq : ℤ
  traceEventHash : String
deriving DecidableEq

def TraceRef.toPayload (ref : TraceRef) : PyVal :=
  .dict [
    ("trace_path", .str ref.tracePath),
    ("trace_seq", .int ref.traceSeq),
    ("trace_event_hash", .str ref.traceEventHash)]

structure BindRequest where
  requestId : String
  capabilityId : String
  effectClass : String
  decisionRef : String
deriving DecidableEq

structure Permit where
  permitId : String
  requestId : String
  capabilityId : String
  effectClass : String
  issuedAt : String
  expiresAt : Option String
  decisionRef : String
  traceRef : TraceRef
deriving DecidableEq

def Permit.toPayload (host : Host) (permit : Permit) : List (String × PyVal) :=
  let body : List (String × PyVal) :=
    [("schema", .str "gpp-permit"),
      ("schema_version", .str "1.0"),
      ("permit_id", .str permit.permitId),
      ("request_id", .str permit.requestId),
      ("capability_id", .str permit.capabilityId),
      ("effect_class", .str permit.effectClass),
      ("issued_at", .str permit.issuedAt),
      ("expires_at", .ofOption permit.expiresAt),
      ("decision_ref", .str permit.decisionRef),
      ("trace_ref", permit.traceRef.toPayload)]
  body ++ [("permit_hash", .str (host.canonicalHash (.dict body)))]

structure DenyRecord where
  requestId : String
  capabilityId : String
  effectClass : String
  reasonCode : String
  decisionRef : String
  deniedAt : String
  traceRef : Option TraceRef

def DenyRecord.toPayload (deny : DenyRecord) : List (String × PyVal) :=
  [("schema", .str "gpp-bind-deny"),
    ("schema_version", .str "1.0"),
    ("request_id", .str deny.requestId),
    ("capability_id", .str deny.capabilityId),
    ("effect_class", .str deny.effectClass),
    ("reason_code", .str deny.reasonCode),
    ("decision_ref", .str deny.decisionRef),
    ("denied_at", .str deny.deniedAt)] ++
    (deny.traceRef.map fun ref => ("trace_ref", ref.toPayload)).toList

/-- What is read off a record that the trace emitter has written. -/
structure TraceRecord where
  schema : String
  schemaVersion : String
  seq : ℤ
  eventHash : String

/-- The outcome is a permit or a denial, with the last trace record. -/
structure BindResult where
  outcome : Permit ⊕ DenyRecord
  traceRecord : Option TraceRecord

def BindResult.permit (result : BindResult) : Option Permit :=
  result.outcome.getLeft?

/-! ## The binder -/

/-- A trace emitter: its file, and what it answers to its `n`-th call; a
disabled emitter records nothing, and writing may raise. -/
structure TraceEmitter where
  path : String
  emit : ℕ → PyVal → Except PyError (Option TraceRecord)

structure PermitBinder where
  traceEmitter : Option TraceEmitter
  clock : ℕ → String

/-- Readings and draws made so far. -/
structure BinderState where
  emitted : ℕ
  ticks : ℕ
  uuids : ℕ

abbrev BinderM (α : Type) := EStateM PyError BinderState α

def descriptorFor (capabilityId : String) : Except PyError (String × String) :=
  match lookupCapability capabilityId with
  | none => .error (.bindValidation ("unknown capability '" ++ capabilityId ++ "'"))
  | some capability => .ok (capability.capabilityId, capability.effectClass)

namespace PermitBinder

variable (host : Host) (binder : PermitBinder)

def now : BinderM String := do
  let s ← get
  modify fun s => { s with ticks := s.ticks + 1 }
  return binder.clock s.ticks

def emit (entry : PyVal) : BinderM (Option TraceRecord) := do
  match binder.traceEmitter with
  | none => return none
  | some emitter =>
      let s ← get
      modify fun s => { s with emitted := s.emitted + 1 }
      raising (emitter.emit s.emitted entry)

def traceRefOf (record : TraceRecord) : TraceRef where
  tracePath := (binder.traceEmitter.map TraceEmitter.path).getD ""
  traceSeq := record.seq
  traceEventHash := record.eventHash

def tracedInputs (request : BindRequest) : PyVal :=
  .dict [
    ("request_id", .str request.requestId),
    ("capability_id", .str request.capabilityId),
    ("effect_class", .str request.effectClass),
    ("decision_ref", .str request.decisionRef)]

def permitEntry (request : BindRequest) (runId workflowId : String) : PyVal :=
  .dict [
    ("run_id", .str runId),
    ("workflow_id", .str workflowId),
    ("layer", .str "governance"),
    ("component", .str "gpp_permit_binder"),
    ("event", .str "permit_bound"),
    ("decision", .str "allow"),
    ("reason_code", .str "permit_scaffold"),
    ("summary",
      .str ("GPP permit scaffold bound for " ++ request.requestId)),
    ("subject", .dict [
      ("type", .str "gpp_bind_request"),
      ("request_id", .str request.requestId),
      ("capability_id", .str request.capabilityId)]),
    ("inputs", tracedInputs request),
    ("outputs", .dict [("outcome", .str "permit")]),
    ("external_calls", .int 0),
    ("metadata", .dict [("phase", .str "gpp_phase1_scaffold")])]

def denyEntry (request : BindRequest) (reasonCode : String) : PyVal :=
  .dict [
    ("run_id", .str "gpp-bind"),
    ("workflow_id", .str "gpp-phase1"),
    ("layer", .str "governance"),
    ("component", .str "gpp_permit_binder"),
    ("event", .str "publish_blocked"),
    ("decision", .str "deny"),
    ("reason_code", .str reasonCode),
    ("summary", .str ("GPP bind denied for " ++ request.requestId ++ ": " ++
      reasonCode)),
    ("subject", .dict [
      ("type", .str "gpp_bind_request"),
      ("request_id", .str request.requestId)]),
    ("inputs", tracedInputs request),
    ("external_calls", .int 0),
    ("metadata", .dict [("phase", .str "gpp_phase1_scaffold")])]

/-- `PermitBinder._deny`, as the result that `bind` returns with it. -/
def deny
    (request : BindRequest) (reasonCode : String)
    (traceRef : Option TraceRef) : BinderM BindResult := do
  let record ← binder.emit (denyEntry request reasonCode)
  let traceRef := traceRef <|> record.map binder.traceRefOf
  let deniedAt ← binder.now
  return {
    outcome := .inr
      { requestId := request.requestId
        capabilityId := request.capabilityId
        effectClass := request.effectClass
        reasonCode := reasonCode
        decisionRef := request.decisionRef
        deniedAt := deniedAt
        traceRef := traceRef }
    traceRecord := record }

def denyReason (request : BindRequest) : Option String :=
  match lookupDecision request.decisionRef with
  | none => some "unknown_decision_ref"
  | some decision =>
      match lookupCapability request.capabilityId with
      | none => some "unknown_capability"
      | some capability =>
          if capability.effectClass ≠ request.effectClass then
            some "effect_class_mismatch"
          else if !capability.bindAllowed then some "capability_denied"
          else if decision.verdict ≠ "allow" then
            some (orText decision.reasonCode "decision_denied")
          else none

def bind
    (request : BindRequest) (descriptor : String × String)
    (traceRef : Option TraceRef) (runId workflowId : String) :
    BinderM BindResult := do
  if request.capabilityId ≠ descriptor.1 then
    throw (.bindValidation "request capability_id does not match descriptor")
  else if request.effectClass ≠ descriptor.2 then
    throw (.bindValidation "request effect_class does not match descriptor")
  else
    match denyReason request with
    | some reasonCode => binder.deny request reasonCode traceRef
    | none =>
        let record ← binder.emit (permitEntry request runId workflowId)
        match record.map binder.traceRefOf <|> traceRef with
        | none => binder.deny request "missing_trace_ref" none
        | some resolved =>
            let s ← get
            modify fun s => { s with uuids := s.uuids + 1 }
            let issuedAt ← binder.now
            return {
              outcome := .inl
                { permitId := "gpp_perm_" ++ host.uuidHex s.uuids
                  requestId := request.requestId
                  capabilityId := request.capabilityId
                  effectClass := request.effectClass
                  issuedAt := issuedAt
                  expiresAt := none
                  decisionRef := request.decisionRef
                  traceRef := resolved }
              traceRecord := record }

end PermitBinder

/-! ## What binding does -/

namespace PermitBinder

variable {host : Host} {binder : PermitBinder}

/-- What the trace emitter makes of binding an allowed request: it raises, it
records the permit, or it records nothing and is told of the denial. -/
def answer
    (binder : PermitBinder) (s : BinderState) (request : BindRequest) :
    Except PyError (Option TraceRecord) :=
  match binder.traceEmitter with
  | none => .ok none
  | some emitter =>
      match emitter.emit s.emitted
          (permitEntry request "gpp-bind" "gpp-phase1") with
      | .error e => .error e
      | .ok (some record) => .ok (some record)
      | .ok none =>
          (emitter.emit (s.emitted + 1)
            (denyEntry request "missing_trace_ref")).map fun _ => none

def issued
    (host : Host) (binder : PermitBinder) (s : BinderState)
    (request : BindRequest) (record : TraceRecord) : Permit where
  permitId := "gpp_perm_" ++ host.uuidHex s.uuids
  requestId := request.requestId
  capabilityId := request.capabilityId
  effectClass := request.effectClass
  issuedAt := binder.clock s.ticks
  expiresAt := none
  decisionRef := request.decisionRef
  traceRef := binder.traceRefOf record

theorem ends_now
    {s : BinderState} {Q : String → BinderState → Prop}
    {E : PyError → BinderState → Prop}
    (h : Q (binder.clock s.ticks) { s with ticks := s.ticks + 1 }) :
    Ends binder.now s Q E := by
  unfold now
  apply ends_bind
  apply ends_get
  apply ends_bind
  apply ends_modify
  exact ends_pure h

theorem deny_ends
    (s : BinderState) (request : BindRequest) (reasonCode : String)
    (traceRef : Option TraceRef) {E : PyError → BinderState → Prop}
    (herror : ∀ emitter e t, binder.traceEmitter = some emitter →
      emitter.emit s.emitted (denyEntry request reasonCode) = .error e → E e t) :
    Ends (binder.deny request reasonCode traceRef) s
      (fun result _ => result.permit = none ∧
        ∀ emitter, binder.traceEmitter = some emitter → ∃ record,
          emitter.emit s.emitted (denyEntry request reasonCode) = .ok record)
      E := by
  unfold deny emit
  apply ends_bind
  split
  next hnone =>
    apply ends_pure
    apply ends_bind
    apply ends_now
    refine ends_pure ⟨rfl, fun emitter hsome => ?_⟩
    rw [hnone] at hsome
    cases hsome
  next emitter hsome =>
    apply ends_bind
    apply ends_get
    apply ends_bind
    apply ends_modify
    apply ends_raising
    · intro record hrecord
      apply ends_bind
      apply ends_now
      refine ends_pure ⟨rfl, fun emitter' hsome' => ?_⟩
      obtain rfl := Option.some.inj (hsome'.symm.trans hsome)
      exact ⟨record, hrecord⟩
    · intro e hraised
      exact herror emitter e _ hsome hraised

/-- Binding an allowed request does what the trace emitter makes of it: a
record becomes a permit for the requested pair. -/
theorem bind_ends
    (s : BinderState) {request : BindRequest} {descriptor : String × String}
    (hcapability : request.capabilityId = descriptor.1)
    (heffect : request.effectClass = descriptor.2)
    (hallowed : denyReason request = none) :
    Ends (binder.bind host request descriptor none "gpp-bind" "gpp-phase1") s
      (fun result _ => ∃ record, binder.answer s request = .ok record ∧
        result.permit = record.map (issued host binder s request))
      (fun e _ => binder.answer s request = .error e) := by
  unfold bind answer emit
  rw [if_neg (not_not.mpr hcapability), if_neg (not_not.mpr heffect), hallowed]
  dsimp only
  apply ends_bind
  cases hemitter : binder.traceEmitter with
  | none =>
      apply ends_pure
      refine ends_mono (deny_ends s request _ none ?_) ?_ (fun _ _ h => h)
      · intro emitter e t hsome
        rw [hemitter] at hsome
        cases hsome
      · rintro result t ⟨hpermit, -⟩
        exact ⟨none, rfl, hpermit⟩
  | some emitter =>
      dsimp only
      apply ends_bind
      apply ends_get
      apply ends_bind
      apply ends_modify
      cases hfirst : emitter.emit s.emitted
          (permitEntry request "gpp-bind" "gpp-phase1") with
      | error e => exact ends_throw rfl
      | ok record =>
          apply ends_pure
          cases record with
          | none =>
              refine ends_mono (deny_ends _ request _ none ?_) ?_
                (fun _ _ h => h)
              · intro emitter' e t hsome hraised
                obtain rfl := Option.some.inj (hsome.symm.trans hemitter)
                exact congrArg (Except.map fun _ => none) hraised
              · rintro result t ⟨hpermit, hreturned⟩
                obtain ⟨denied, hdenied⟩ := hreturned emitter hemitter
                exact ⟨none, congrArg (Except.map fun _ => none) hdenied,
                  hpermit⟩
          | some record =>
              apply ends_bind
              apply ends_get
              apply ends_bind
              apply ends_modify
              apply ends_bind
              apply ends_now
              exact ends_pure ⟨some record, rfl, rfl⟩

end PermitBinder

/-! ## Drafts -/

def tracePathFromResult (result : BindResult) : String :=
  match result.outcome with
  | .inl permit => permit.traceRef.tracePath
  | .inr deny => (deny.traceRef.map TraceRef.tracePath).getD ""

def traceRecordedDraft (record : TraceRecord) (tracePath : String) : Draft where
  type := "GPP_TRACE_RECORDED"
  payload :=
    [("schema", .str record.schema),
      ("schema_version", .str record.schemaVersion),
      ("trace_path", .str tracePath),
      ("trace_seq", .int record.seq),
      ("trace_event_hash", .str record.eventHash),
      ("enforcement", .str "gpp_phase1_scaffold")]
  causalParents := []

def permitBoundDraft (host : Host) (permit : Permit) : Draft where
  type := "GPP_PERMIT_BOUND"
  payload := permit.toPayload host ++
    [("enforcement", .str "gpp_phase1_scaffold")]
  causalParents := []

def bindDeniedDraft (deny : DenyRecord) : Draft where
  type := "GPP_BIND_DENIED"
  payload := deny.toPayload ++ [("enforcement", .str "gpp_phase1_scaffold")]
  causalParents := []

def bindResultToDrafts (host : Host) (result : BindResult) : List Draft :=
  (result.traceRecord.map fun record =>
    traceRecordedDraft record (tracePathFromResult result)).toList ++
    [match result.outcome with
      | .inl permit => permitBoundDraft host permit
      | .inr deny => bindDeniedDraft deny]

end Hydrogenuine.Governance
