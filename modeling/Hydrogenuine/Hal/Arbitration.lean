import Mathlib.Data.List.Sort
import Hydrogenuine.Governance.CapabilityRegistry
import Hydrogenuine.Runtime.Contract

/-!
# Arbitration

Embedding of `hg_hal/types.py`, `hg_hal/arbitration.py` and
`hg_hal/rtc_bridge.py`: a proposal is turned into an arbitration request with
one candidate, and the arbiter routes a request by the registry, the arousal
severity and the binding of the deliberation before it.
-/

namespace Hydrogenuine.Hal

open Support Hydrogenuine.Core Governance
open Hydrogenuine.Runtime

/-! ## Requests and results -/

inductive ArbitrationRouting where
  | accept
  | reject
  | defer
  | noOp
deriving DecidableEq

def ArbitrationRouting.text : ArbitrationRouting → String
  | accept => "ACCEPT"
  | reject => "REJECT"
  | defer => "DEFER"
  | noOp => "NO_OP"

structure ArbitrationCandidate where
  candidateId : String
  actionRef : String
  capabilityId : String
  effectClass : String
  priority : ℤ
deriving DecidableEq

def ArbitrationCandidate.toPayload (candidate : ArbitrationCandidate) : PyVal :=
  .dict [
    ("candidate_id", .str candidate.candidateId),
    ("action_ref", .str candidate.actionRef),
    ("capability_id", .str candidate.capabilityId),
    ("effect_class", .str candidate.effectClass),
    ("priority", .int candidate.priority)]

/-- The binding that the deliberation (SOAR) arrived at uses the same four
words as the routing. -/
structure ArbitrationRequest where
  requestId : String
  proposalRef : String
  candidates : List ArbitrationCandidate
  contextRefs : List String
  aepModulationRefs : List String
  aepMaxSeverity : ℤ
  scrutinyDepthDelta : ℤ
  soarRunRef : Option String
  soarBinding : Option ArbitrationRouting

def ArbitrationRequest.toPayload
    (request : ArbitrationRequest) : List (String × PyVal) :=
  [("schema", .str "hal-arbitration-request"),
    ("schema_version", .str "1.0"),
    ("request_id", .str request.requestId),
    ("proposal_ref", .str request.proposalRef),
    ("candidate_refs",
      .ofStrings (request.candidates.map ArbitrationCandidate.actionRef)),
    ("candidates", .list (request.candidates.map fun c => c.toPayload)),
    ("context_refs", .ofStrings request.contextRefs),
    ("aep_modulation_refs", .ofStrings request.aepModulationRefs),
    ("aep_max_severity", .int request.aepMaxSeverity),
    ("scrutiny_depth_delta", .int request.scrutinyDepthDelta),
    ("soar_run_ref", .ofOption request.soarRunRef),
    ("soar_binding",
      .ofOption (request.soarBinding.map ArbitrationRouting.text))]

structure ArbitrationResult where
  requestId : String
  routing : ArbitrationRouting
  selectedCandidateRef : Option String
  reasonCode : String
  traceRefs : List String
  deferredCandidateRefs : List String
deriving DecidableEq

def ArbitrationResult.toPayload
    (host : Host) (result : ArbitrationResult) : List (String × PyVal) :=
  let body : List (String × PyVal) :=
    [("schema", .str "hal-arbitration-result"),
      ("schema_version", .str "1.0"),
      ("request_id", .str result.requestId),
      ("routing", .str result.routing.text),
      ("selected_candidate_ref", .ofOption result.selectedCandidateRef),
      ("reason_code", .str result.reasonCode),
      ("trace_refs", .ofStrings result.traceRefs),
      ("deferred_candidate_refs", .ofStrings result.deferredCandidateRefs)]
  body ++ [("arbitration_hash", .str (host.canonicalHash (.dict body)))]

/-! ## Arbitration -/

def blockedBySoarBinding
    (request : ArbitrationRequest) : Option (ArbitrationRouting × String) :=
  match request.soarBinding with
  | some .reject => some (.reject, "soar_binding_reject")
  | some .noOp => some (.noOp, "soar_binding_no_op")
  | some .defer => some (.defer, "soar_binding_defer")
  | some .accept => none
  | none => none

def blockedByAepScrutiny
    (request : ArbitrationRequest) (effectClass : String) : Bool :=
  if effectClass ∉ ["external_write"] then false
  else
    let threshold := 7 + max 0 request.scrutinyDepthDelta
    decide (threshold ≤ request.aepMaxSeverity)

def rejectReason
    (request : ArbitrationRequest) (candidate : ArbitrationCandidate) :
    Option String :=
  match lookupCapability candidate.capabilityId with
  | none => some "capability_denied"
  | some capability =>
      if !capability.bindAllowed then some "capability_denied"
      else if capability.effectClass ≠ candidate.effectClass then
        some "effect_class_mismatch"
      else if blockedByAepScrutiny request candidate.effectClass then
        some "aep_scrutiny_blocked"
      else none

/-- The key `(-priority, candidate_id)` is at most the other. -/
def keyLe (a b : ArbitrationCandidate) : Prop :=
  b.priority < a.priority ∨
    (a.priority = b.priority ∧ a.candidateId ≤ b.candidateId)

instance : DecidableRel keyLe := fun _ _ =>
  inferInstanceAs (Decidable (_ ∨ _))

/-- The variables of the loop over the ordered candidates. -/
structure Selection where
  selected : Option ArbitrationCandidate
  deferred : List String
  reason : String

def Selection.next
    (request : ArbitrationRequest) (loop : Selection)
    (candidate : ArbitrationCandidate) : Selection :=
  match rejectReason request candidate with
  | some reason =>
      { loop with
        reason := reason
        deferred := loop.deferred ++ [candidate.actionRef] }
  | none =>
      match loop.selected with
      | none => { loop with selected := some candidate }
      | some _ => { loop with deferred := loop.deferred ++ [candidate.actionRef] }

def arbitrationTraceRefs (request : ArbitrationRequest) : List String :=
  ["hal:request:" ++ request.requestId, "hal:proposal:" ++ request.proposalRef] ++
    request.contextRefs.map ("hal:ctx:" ++ ·) ++
    request.aepModulationRefs.map ("hal:aep:" ++ ·) ++
    (if isText request.soarRunRef then
      request.soarRunRef.toList.map ("soar:run:" ++ ·)
    else [])

def arbitrate (request : ArbitrationRequest) : ArbitrationResult :=
  let traceRefs := arbitrationTraceRefs request
  match blockedBySoarBinding request with
  | some (routing, reasonCode) =>
      ⟨request.requestId, routing, none, reasonCode, traceRefs, []⟩
  | none =>
      if request.candidates.isEmpty then
        ⟨request.requestId, .noOp, none, "queue_empty", traceRefs, []⟩
      else
        let loop := (request.candidates.insertionSort keyLe).foldl
          (Selection.next request) ⟨none, [], "no_eligible_candidate"⟩
        match loop.selected with
        | none =>
            ⟨request.requestId, .reject, none, loop.reason, traceRefs,
              loop.deferred⟩
        | some selected =>
            ⟨request.requestId, .accept, some selected.actionRef,
              if loop.deferred.isEmpty then "sole_candidate"
              else "selected_highest_priority",
              traceRefs ++ ["hal:candidate:" ++ selected.candidateId],
              loop.deferred⟩

def decisionRefForResult (result : ArbitrationResult) : String :=
  match result.routing with
  | .accept => "dec_hal_accept"
  | .reject => "dec_hal_reject"
  | .defer => "dec_hal_reject"
  | .noOp => "dec_hal_no_op"

/-! ## From a proposal to a request -/

/-- What the deliberation returns for a proposal: the payloads of its domain
evaluations, of its decision and of the critique, and the binding. -/
structure SoarRun where
  requestId : String
  domainEvaluations : List (List (String × PyVal))
  d7Decision : List (String × PyVal)
  d7Critique : List (String × PyVal)
  binding : ArbitrationRouting

/-- `str(payload.get("proposal_id") or proposal.get("event_id"))`. -/
def proposalIdOf (host : Host) (proposal : Event) : String :=
  host.strOr (PyVal.getItem proposal.payload "proposal_id") proposal.eventId

/-- The capability id and effect class that a content asks for, with the
defaults of the arbiter. -/
def arbitratedPair
    (host : Host) (content : List (String × PyVal)) : String × String :=
  (host.strOr (PyVal.getItem content "capability_id") "cap.oea_stub_log",
    host.strOr (PyVal.getItem content "effect_class") "audit_log")

def requestFromProposal
    (host : Host) (proposal : Event) (contextRefs : List String)
    (aepState : List (String × PyVal)) (aepModulationRefs : List String)
    (soarRun : Option SoarRun) : Except PyError ArbitrationRequest := do
  let proposalId := proposalIdOf host proposal
  let content ← copyItems proposal.payload "content"
  let (capabilityId, effectClass) := arbitratedPair host content
  let actionType :=
    host.strOr (PyVal.getItem content "action_type") "oea_stub_log"
  let priority ← host.toInt ((PyVal.item? content "priority").getD (.int 0))
  let candidate : ArbitrationCandidate :=
    { candidateId := host.stableId "hal_cand" [proposalId]
      actionRef := host.stableId "hal_action" [proposalId, actionType]
      capabilityId := capabilityId
      effectClass := effectClass
      priority := priority }
  let severity ←
    host.toInt ((PyVal.item? aepState "max_severity").getD (.int 0))
  return {
    requestId := host.stableId "hal_req" [proposalId]
    proposalRef := proposalId
    candidates := [candidate]
    contextRefs := contextRefs
    aepModulationRefs := aepModulationRefs
    aepMaxSeverity := severity
    scrutinyDepthDelta := aepModulationRefs.length
    soarRunRef := soarRun.map SoarRun.requestId
    soarBinding := soarRun.map SoarRun.binding }

/-! ## An accepted proposal -/

/-- The pair is registered as it stands and may be bound. -/
def Registered (pair : String × String) : Prop :=
  ∃ capability, lookupCapability pair.1 = some capability ∧
    capability.bindAllowed = true ∧ capability.effectClass = pair.2

variable {request : ArbitrationRequest}

theorem registered_of_rejectReason {candidate : ArbitrationCandidate}
    (h : rejectReason request candidate = none) :
    Registered (candidate.capabilityId, candidate.effectClass) := by
  unfold rejectReason at h
  split at h
  · cases h
  next capability hcapability =>
    split_ifs at h with hallowed heffect
    rw [Bool.not_eq_true, Bool.not_eq_false'] at hallowed
    exact ⟨capability, hcapability, hallowed, not_not.mp heffect⟩

/-- A sole candidate is accepted only if nothing speaks against it, and it is
then the one selected. -/
theorem arbitrate_sole {candidate : ArbitrationCandidate}
    (hsole : request.candidates = [candidate])
    (haccept : (arbitrate request).routing = .accept) :
    rejectReason request candidate = none ∧
      (arbitrate request).selectedCandidateRef = some candidate.actionRef := by
  unfold arbitrate at haccept ⊢
  cases hsoar : blockedBySoarBinding request with
  | some blocked =>
      obtain ⟨routing, reasonCode⟩ := blocked
      rw [hsoar] at haccept
      dsimp only at haccept
      subst haccept
      unfold blockedBySoarBinding at hsoar
      split at hsoar <;> cases hsoar
  | none =>
      cases hreason : rejectReason request candidate with
      | some reason =>
          simp [hsoar, hsole, List.insertionSort, Selection.next,
            hreason] at haccept
      | none =>
          simp [hsole, List.insertionSort, Selection.next, hreason]

/-- The request for a proposal has one candidate, for the pair that its content
asks for. -/
theorem requestFromProposal_ok
    {host : Host} {proposal : Event} {contextRefs : List String}
    {aepState : List (String × PyVal)} {aepModulationRefs : List String}
    {soarRun : Option SoarRun}
    (h : requestFromProposal host proposal contextRefs aepState
      aepModulationRefs soarRun = .ok request) :
    ∃ content candidate, copyItems proposal.payload "content" = .ok content ∧
      request.candidates = [candidate] ∧
      (candidate.capabilityId, candidate.effectClass) =
        arbitratedPair host content := by
  unfold requestFromProposal at h
  cases hcontent : copyItems proposal.payload "content" with
  | error e =>
      rw [hcontent] at h
      cases h
  | ok content =>
      rw [hcontent] at h
      cases hpriority :
          host.toInt ((PyVal.item? content "priority").getD (.int 0)) with
      | error e =>
          simp only [bind, Except.bind, hpriority] at h
          cases h
      | ok priority =>
          cases hseverity :
              host.toInt ((PyVal.item? aepState "max_severity").getD
                (.int 0)) with
          | error e =>
              simp only [bind, Except.bind, hpriority, hseverity] at h
              cases h
          | ok severity =>
              simp only [bind, Except.bind, hpriority, hseverity] at h
              cases h
              exact ⟨content, _, rfl, rfl, rfl⟩

/-! ## Drafts -/

def arbitrationRequestedDraft
    (request : ArbitrationRequest) (causalParents : List String) : Draft where
  type := "HAL_ARBITRATION_REQUESTED"
  payload := request.toPayload
  causalParents := causalParents

def arbitrationRecordedDraft
    (host : Host) (result : ArbitrationResult) (causalParents : List String) :
    Draft where
  type := "HAL_ARBITRATION_RECORDED"
  payload := result.toPayload host ++
    [("enforcement", .str "hal_phase1_arbitration_only")]
  causalParents := causalParents

end Hydrogenuine.Hal
