import Hydrogenuine.Core.Iam
import Hydrogenuine.Core.ReferenceHost
import Hydrogenuine.Gpp.Verifier

/-!
# Admission to execution

Embedding of `hg_ueak/models.py`, `hg_ueak/validation.py` and
`hg_ueak/kernel.py`: the execution authority kernel validates a request, of
which the presented permit is one field, and either refuses it with every
collected reason or hands a dispatch plan to the sink.  The kernel's trust in
the permit is `verify_permit`, so what it admits is settled there.
-/

namespace Hydrogenuine.Ueak

open Support Hydrogenuine.Core Governance
open Gpp

structure ExecutionRefusalReason where
  code : String
  detail : String
deriving DecidableEq

def ExecutionRefusalReason.toPayload (reason : ExecutionRefusalReason) : PyVal :=
  .dict [("code", .str reason.code), ("detail", .str reason.detail)]

structure ExecutionCandidate where
  candidateId : String
  actionType : String
  capabilityId : String
  effectClass : String

structure AuthorityChain where
  proposalRef : String
  halDecisionRef : Option String
  soarRunRef : Option String
  gppPermitId : Option String
  gppPermitHash : Option String

structure PermitBinding where
  permitId : String
  permitHash : String
  capabilityRef : String
  effectClass : String

def PermitBinding.toPayload (binding : PermitBinding) : PyVal :=
  .dict [
    ("permit_id", .str binding.permitId),
    ("permit_hash", .str binding.permitHash),
    ("capability_ref", .str binding.capabilityRef),
    ("effect_class", .str binding.effectClass)]

structure EmergencyState where
  active : Bool
  mode : String
  restrictOnly : Bool

structure ExposureSurface where
  currentLevel : String
  requestedLevel : String
  increaseExplicit : Bool

/-- The ranks of the exposure levels; an unknown level ranks lowest. -/
def exposureRank (level : String) : ℕ :=
  if level = "bounded" then 1 else if level = "external" then 2 else 0

def ExposureSurface.isIncrease (exposure : ExposureSurface) : Bool :=
  decide (exposureRank exposure.currentLevel <
    exposureRank exposure.requestedLevel)

structure RollbackRequirement where
  required : Bool
  rollbackRef : String
  compensationRef : String

structure ExecutionRiskEnvelope where
  riskClass : String
  exposure : ExposureSurface
  emergency : EmergencyState
  pressureHigh : Bool

structure ExecutionRequest where
  requestId : String
  candidate : ExecutionCandidate
  authorityChain : AuthorityChain
  permit : Option GovernedPermit
  identityRef : String
  admissionRef : String
  freshnessRef : String
  approvalExpiresAt : Option String
  redactionRef : String
  retentionRef : String
  rollback : RollbackRequirement
  risk : ExecutionRiskEnvelope
  panicLockdown : Bool
  redactionPayload : Option PyVal
  idempotencyKey : String

structure ExecutionDispatchPlan where
  dispatchId : String
  requestId : String
  candidateId : String
  capabilityId : String
  effectClass : String
  permitBinding : PermitBinding

def ExecutionDispatchPlan.toPayload (plan : ExecutionDispatchPlan) : PyVal :=
  .dict [
    ("dispatch_id", .str plan.dispatchId),
    ("request_id", .str plan.requestId),
    ("candidate_id", .str plan.candidateId),
    ("capability_id", .str plan.capabilityId),
    ("effect_class", .str plan.effectClass),
    ("permit_binding", plan.permitBinding.toPayload),
    ("sink", .str "fake_dispatch")]

inductive AdmissionStatus where
  | admitted
  | refused
deriving DecidableEq

def AdmissionStatus.text : AdmissionStatus → String
  | .admitted => "admitted"
  | .refused => "refused"

structure ExecutionReceipt where
  receiptId : String
  requestId : String
  status : AdmissionStatus
  permitId : String
  issuedAt : String
  dispatchId : Option String
  refusalReasons : List ExecutionRefusalReason

/-- `ExecutionReceipt.to_payload(include_hash=False)`. -/
def ExecutionReceipt.body (receipt : ExecutionReceipt) :
    List (String × PyVal) :=
  [ ("schema", .str "ueak-execution-receipt"),
    ("schema_version", .str "1.0"),
    ("receipt_id", .str receipt.receiptId),
    ("request_id", .str receipt.requestId),
    ("status", .str receipt.status.text),
    ("permit_id", .str receipt.permitId),
    ("issued_at", .str receipt.issuedAt),
    ("dispatch_id", .ofOption receipt.dispatchId),
    ("refusal_reasons",
      .list (receipt.refusalReasons.map ExecutionRefusalReason.toPayload)) ]

/-- The hash `ExecutionReceipt.__post_init__` fills in. -/
def ExecutionReceipt.receiptHash (host : Host) (receipt : ExecutionReceipt) :
    String :=
  host.canonicalHash (.dict receipt.body)

structure ExecutionAdmissionDecision where
  status : AdmissionStatus
  requestId : String
  dispatchPlan : Option ExecutionDispatchPlan
  receipt : ExecutionReceipt
  refusalReasons : List ExecutionRefusalReason

/-- The hash `ExecutionAdmissionDecision.__post_init__` fills in. -/
def ExecutionAdmissionDecision.decisionHash
    (host : Host) (decision : ExecutionAdmissionDecision) : String :=
  host.canonicalHash (.dict (
    [ ("schema", .str "ueak-admission-decision"),
      ("schema_version", .str "1.0"),
      ("status", .str decision.status.text),
      ("request_id", .str decision.requestId),
      ("refusal_reasons",
        .list (decision.refusalReasons.map
          ExecutionRefusalReason.toPayload)) ] ++
    (match decision.dispatchPlan with
      | some plan => [("dispatch_plan", plan.toPayload)]
      | none => []) ++
    [("receipt", .dict (decision.receipt.body ++
      [("receipt_hash", .str (decision.receipt.receiptHash host))]))]))

/-! ## Validation -/

/-- What the kernel is configured with: the operator registry, the secret
scanner and the readings of its clock. -/
structure KernelConfig where
  registry : OperatorRegistry
  containsLeak : PyVal → Bool
  now : ℕ → String

/-- One collected refusal when `refuse` holds. -/
def refuseIf (refuse : Bool) (code detail : String) :
    List ExecutionRefusalReason :=
  if refuse then [⟨code, detail⟩] else []

/-- `_is_missing_identity` of the kernel. -/
def isMissingIdentity (identityRef : String) : Bool :=
  let raw := strip identityRef
  decide (raw ∈ ["", "placeholder", "unknown", "TBD", "operator_id"]) ||
    startsWith raw "agent:"

/-- `_validate_retention_ref` of the kernel. -/
def validateRetentionRef (retentionRef : String) : Bool :=
  let raw := strip retentionRef
  raw != "" &&
    decide (raw ∉ ["ret:missing", "ret:failed", "retention:missing"])

/-- The code under which a refusal of `verify_permit` is reported. -/
def permitRefusalCode (reason : String) : String :=
  if isSubstring "expired" reason then "ueak.denied.expired_permit"
  else if isSubstring "revoked" reason then "ueak.denied.revoked_permit"
  else if isSubstring "scope" reason then "ueak.denied.capability_mismatch"
  else "ueak.denied.invalid_permit"

/-- The permit part of `validate_execution_request`. -/
def permitReasons
    (host : Host) (store : PermitStore) (request : ExecutionRequest)
    (permit : GovernedPermit) (now : String) : List ExecutionRefusalReason :=
  let chain := request.authorityChain
  let verified := verifyPermit host store permit now
    (some request.candidate.actionType) (some request.candidate.capabilityId)
    (some request.candidate.effectClass)
  refuseIf
      (isText chain.gppPermitId &&
        decide (chain.gppPermitId ≠ some permit.permitId))
      "ueak.denied.invalid_permit" "authority chain permit_id mismatch" ++
    refuseIf
      (isText chain.gppPermitHash &&
        decide (chain.gppPermitHash ≠ some permit.permitHash))
      "ueak.denied.invalid_permit" "authority chain permit_hash mismatch" ++
    refuseIf (!verified.1) (permitRefusalCode verified.2) verified.2

/-- The IAM part of `validate_execution_request`. -/
def identityReasons (config : KernelConfig) (request : ExecutionRequest) :
    List ExecutionRefusalReason :=
  if isMissingIdentity request.identityRef then
    [⟨"ueak.denied.missing_identity", "IAM identity required"⟩]
  else
    refuseIf
      (!(validateOperatorAuthority config.registry request.identityRef
        "approve_change" "").ok)
      "ueak.denied.missing_identity" "IAM authority denied"

/-- The TIM part of `validate_execution_request`. -/
def approvalReasons (host : Host) (request : ExecutionRequest) (now : String) :
    List ExecutionRefusalReason :=
  if isText request.approvalExpiresAt then
    let window := validateApprovalWindow host request.approvalExpiresAt now
    refuseIf (!window.1) "ueak.denied.stale_approval" window.2
  else []

/-- The SEC part of `validate_execution_request`. -/
def redactionReasons (config : KernelConfig) (request : ExecutionRequest) :
    List ExecutionRefusalReason :=
  if missingRef request.redactionRef ["sec:failed", "sec:redaction_failed"] then
    [⟨"ueak.denied.redaction_failure", "SEC redaction required"⟩]
  else
    match request.redactionPayload with
    | none => []
    | some payload =>
        refuseIf (config.containsLeak payload)
          "ueak.denied.redaction_failure" "secret leak detected"

/-- The capability part of `validate_execution_request`. -/
def capabilityReasons (candidate : ExecutionCandidate) :
    List ExecutionRefusalReason :=
  match lookupCapability candidate.capabilityId with
  | none => [⟨"ueak.denied.capability_mismatch", "capability denied"⟩]
  | some cap =>
      if cap.bindAllowed = false then
        [⟨"ueak.denied.capability_mismatch", "capability denied"⟩]
      else
        refuseIf (cap.effectClass != candidate.effectClass)
          "ueak.denied.capability_mismatch" "effect_class mismatch"

/-- `validate_execution_request`: every refusal, in the order of the source. -/
def validateExecutionRequest
    (host : Host) (config : KernelConfig) (store : PermitStore)
    (request : ExecutionRequest) (now : String) : List ExecutionRefusalReason :=
  let lockdown := refuseIf request.panicLockdown
    "ueak.denied.panic_lockdown" "ADM panic/lockdown active"
  match request.permit with
  | none =>
      lockdown ++
        refuseIf request.risk.pressureHigh "ueak.denied.resource_bypass"
          "resource pressure cannot bypass authority" ++
        [⟨"ueak.denied.missing_permit", "GPP permit required"⟩]
  | some permit =>
      let emergency := request.risk.emergency
      let exposure := request.risk.exposure
      lockdown ++ permitReasons host store request permit now ++
        identityReasons config request ++
        refuseIf
          (missingRef request.admissionRef ["adm:missing", "admission:missing"])
          "ueak.denied.missing_admission" "ADM admission required" ++
        refuseIf
          (missingRef request.freshnessRef ["tim:missing", "freshness:missing"])
          "ueak.denied.freshness_failure" "TIM freshness required" ++
        approvalReasons host request now ++
        redactionReasons config request ++
        refuseIf (!validateRetentionRef request.retentionRef)
          "ueak.denied.retention_failure" "RET evidence required" ++
        capabilityReasons request.candidate ++
        refuseIf
          (request.rollback.required && strip request.rollback.rollbackRef == "")
          "ueak.denied.missing_rollback" "rollback ref required" ++
        refuseIf
          (emergency.active && emergency.restrictOnly &&
            request.candidate.effectClass == "external_write" &&
            emergency.mode != "allow_external")
          "ueak.denied.emergency_restrict" "emergency restrict-only" ++
        refuseIf (exposure.isIncrease && !exposure.increaseExplicit)
          "ueak.denied.exposure_increase" "exposure increase not explicit"

/-! ## The kernel -/

structure AdmissionLogEntry where
  event : String
  requestId : String
  dispatchId : Option String
  receiptHash : Option String
  reasons : List String

/-- The state of an `ExecutionAuthorityKernel` and of its dispatch sink. -/
structure ExecutionAuthorityKernel where
  permitStore : PermitStore
  dispatches : List ExecutionDispatchPlan
  admissionLog : List AdmissionLogEntry
  processedKeys : List String
  ticks : ℕ

namespace ExecutionAuthorityKernel

def refuse
    (host : Host) (kernel : ExecutionAuthorityKernel)
    (request : ExecutionRequest) (reasons : List ExecutionRefusalReason)
    (now : String) : ExecutionAuthorityKernel × ExecutionAdmissionDecision :=
  let codes := reasons.map ExecutionRefusalReason.code
  let receipt : ExecutionReceipt :=
    { receiptId := "ueak_rcpt_" ++ slice (host.canonicalHash (.dict [
        ("request_id", .str request.requestId), ("status", .str "refused"),
        ("now", .str now), ("reasons", .ofStrings codes)])) 7 19
      requestId := request.requestId
      status := .refused
      permitId := (request.permit.map fun p => p.permitId).getD ""
      issuedAt := now
      dispatchId := none
      refusalReasons := reasons }
  ({ kernel with
      admissionLog := kernel.admissionLog ++
        [⟨"ueak.refused", request.requestId, none, none, codes⟩] },
    ⟨.refused, request.requestId, none, receipt, reasons⟩)

/-- The admitting branch of `ExecutionAuthorityKernel.admit`. -/
def accept
    (host : Host) (kernel : ExecutionAuthorityKernel)
    (request : ExecutionRequest) (permit : GovernedPermit) (now : String) :
    ExecutionAuthorityKernel × ExecutionAdmissionDecision :=
  let dispatchId := "disp_" ++
    slice (host.canonicalHash (.str (request.requestId ++ now))) 7 19
  let plan : ExecutionDispatchPlan :=
    { dispatchId := dispatchId
      requestId := request.requestId
      candidateId := request.candidate.candidateId
      capabilityId := request.candidate.capabilityId
      effectClass := request.candidate.effectClass
      permitBinding := ⟨permit.permitId, permit.permitHash,
        permit.capabilityRef, permit.scope.effectClass⟩ }
  let receipt : ExecutionReceipt :=
    { receiptId := "ueak_rcpt_" ++ slice (host.canonicalHash (.dict [
        ("request_id", .str request.requestId), ("status", .str "admitted"),
        ("now", .str now)])) 7 19
      requestId := request.requestId
      status := .admitted
      permitId := permit.permitId
      issuedAt := now
      dispatchId := some dispatchId
      refusalReasons := [] }
  ({ kernel with
      dispatches := kernel.dispatches ++ [plan]
      processedKeys := orText (some request.idempotencyKey) request.requestId ::
        kernel.processedKeys
      admissionLog := kernel.admissionLog ++
        [⟨"ueak.admitted", request.requestId, some dispatchId,
          some (receipt.receiptHash host), []⟩] },
    ⟨.admitted, request.requestId, some plan, receipt, []⟩)

/-- `ExecutionAuthorityKernel.admit`. -/
def admitRequest
    (host : Host) (config : KernelConfig) (kernel : ExecutionAuthorityKernel)
    (request : ExecutionRequest) :
    ExecutionAuthorityKernel × ExecutionAdmissionDecision :=
  let now := config.now kernel.ticks
  let kernel := { kernel with ticks := kernel.ticks + 1 }
  if orText (some request.idempotencyKey) request.requestId ∈
      kernel.processedKeys then
    kernel.refuse host request
      [⟨"ueak.denied.duplicate", "duplicate idempotency key"⟩] now
  else
    match validateExecutionRequest host config kernel.permitStore request now,
        request.permit with
    | [], some permit => kernel.accept host request permit now
    | reasons, _ => kernel.refuse host request reasons now

end ExecutionAuthorityKernel

/-! ## What the kernel relies on -/

theorem refuseIf_eq_nil_iff {refuse : Bool} {code detail : String} :
    refuseIf refuse code detail = [] ↔ refuse = false := by
  cases refuse <;> simp [refuseIf]

/-- `verify_permit` as the kernel calls it on a candidate. -/
def candidateVerified
    (host : Host) (store : PermitStore) (permit : GovernedPermit) (now : String)
    (candidate : ExecutionCandidate) : Bool :=
  (verifyPermit host store permit now (some candidate.actionType)
    (some candidate.capabilityId) (some candidate.effectClass)).1

theorem verified_of_validateExecutionRequest
    {host : Host} {config : KernelConfig} {store : PermitStore}
    {request : ExecutionRequest} {now : String}
    (hvalid : validateExecutionRequest host config store request now = []) :
    ∃ permit, request.permit = some permit ∧
      candidateVerified host store permit now request.candidate = true := by
  unfold validateExecutionRequest at hvalid
  cases hpermit : request.permit with
  | none => simp [hpermit] at hvalid
  | some permit =>
      refine ⟨permit, rfl, ?_⟩
      simp only [hpermit, List.append_eq_nil_iff] at hvalid
      have hreasons : permitReasons host store request permit now = [] := by
        tauto
      simp only [permitReasons, List.append_eq_nil_iff] at hreasons
      simpa [candidateVerified] using refuseIf_eq_nil_iff.mp hreasons.2

theorem verified_of_admitRequest
    {host : Host} {config : KernelConfig} {kernel : ExecutionAuthorityKernel}
    {request : ExecutionRequest}
    (hadmitted : (kernel.admitRequest host config request).2.status =
      .admitted) :
    ∃ permit, request.permit = some permit ∧
      candidateVerified host kernel.permitStore permit
        (config.now kernel.ticks) request.candidate = true := by
  unfold ExecutionAuthorityKernel.admitRequest at hadmitted
  dsimp only at hadmitted
  split at hadmitted
  · cases hadmitted
  · split at hadmitted
    · rename_i hvalid _
      exact verified_of_validateExecutionRequest hvalid
    · cases hadmitted

/-- Over every reachable permit store, every accepted object is the record
that was filed under its id unless it is a look-alike of that record; and of
the objects the kernel admits, the stored ones are exactly those that are no
look-alikes. -/
theorem accepted_permit_is_stored_iff
    (host : Host) (config : AuthorityConfig) (calls : List PermitCall)
    (permit : GovernedPermit) :
    (∀ now actionType capabilityRef effectClass,
      ((verifyPermit host (reachedStore host config calls) permit now actionType
          capabilityRef effectClass).1 = true →
        (reachedStore host config calls).get permit.permitId = some permit ∧
          ∃ e ∈ (permitMachine host config).trace (.init .empty) calls,
            Files permit e) ↔
        ¬ LookAlike host (reachedStore host config calls) permit now actionType
          capabilityRef effectClass) ∧
      ∀ (kernelConfig : KernelConfig) (kernel : ExecutionAuthorityKernel)
        (request : ExecutionRequest),
        kernel.permitStore = reachedStore host config calls →
          request.permit = some permit →
          (kernel.admitRequest host kernelConfig request).2.status = .admitted →
          ((reachedStore host config calls).get permit.permitId =
              some permit ↔
            ¬ LookAlike host (reachedStore host config calls) permit
              (kernelConfig.now kernel.ticks)
              (some request.candidate.actionType)
              (some request.candidate.capabilityId)
              (some request.candidate.effectClass)) := by
  constructor
  · intro now actionType capabilityRef effectClass
    constructor
    · intro hstored hlook
      have haccept := verifyPermit_of_lookAlike hlook
      exact (get_eq_some_iff_not_lookAlike haccept).mp (hstored haccept).1 hlook
    · intro hno haccept
      have hget := (get_eq_some_iff_not_lookAlike haccept).mpr hno
      obtain ⟨-, -, -, hlive, -⟩ := verifyPermit_eq_true_iff.mp haccept
      exact ⟨hget, filed_of_get host config calls hget hlive⟩
  · intro kernelConfig kernel request hstore hpermit hadmitted
    obtain ⟨presented, hpresented, hverified⟩ :=
      verified_of_admitRequest hadmitted
    rw [hpermit, Option.some.injEq] at hpresented
    subst hpresented
    rw [hstore] at hverified
    exact get_eq_some_iff_not_lookAlike hverified

/-! ## A forged permit -/

def grantedPermit : GovernedPermit :=
  (permitOf referenceRequest
    (permitIdOf referenceHost "req-1" "2026-03-01T12:00:00.000Z")
    "2026-03-01T12:00:00.000Z" "2026-03-01T12:00:30.000Z" .granted
    []).seal referenceHost

/-- The same id over another capability, another scope and a later expiry, with
the hash the constructor computes. -/
def forgedPermit : GovernedPermit :=
  { grantedPermit.toPermitBody with
    capabilityRef := "local_report_file.write"
    requestedActionType := "local_report_file_write"
    scope := ⟨"local_report_file.write", "local_report",
      "local_report_file_write", []⟩
    expiresAt := "2027-03-01T12:00:00.000Z" : PermitBody }.seal referenceHost

def forgedRequest : ExecutionRequest where
  requestId := "ueak_req_1"
  candidate := ⟨"cand_1", "local_report_file_write", "local_report_file.write",
    "local_report"⟩
  authorityChain := ⟨"prop_1", some "hal_dec_1", none,
    some forgedPermit.permitId, some forgedPermit.permitHash⟩
  permit := some forgedPermit
  identityRef := "operator:owner"
  admissionRef := "adm:1"
  freshnessRef := "tim:approval_window_ok"
  approvalExpiresAt := some forgedPermit.expiresAt
  redactionRef := "sec:redaction_passed"
  retentionRef := "ret:evidence_1"
  rollback := ⟨false, "", ""⟩
  risk := ⟨"low", ⟨"internal", "internal", false⟩, ⟨false, "none", true⟩, false⟩
  panicLockdown := false
  redactionPayload := none
  idempotencyKey := ""

def referenceKernelConfig : KernelConfig where
  registry := referenceRegistry
  containsLeak _ := false
  now _ := "2026-03-01T12:05:00.000Z"

/-- After one grant for an audit-log effect, an object that reuses its id for a
file write is verified and admitted, five minutes after the grant expired. -/
theorem forgedPermit_admitted :
    (reachedStore referenceHost referenceConfig [.issue referenceRequest]).get
          forgedPermit.permitId = some grantedPermit ∧
      grantedPermit ≠ forgedPermit ∧
      (verifyPermit referenceHost
          (reachedStore referenceHost referenceConfig [.issue referenceRequest])
          forgedPermit "2026-03-01T12:05:00.000Z"
          (some "local_report_file_write") (some "local_report_file.write")
          (some "local_report")) = (true, "ok") ∧
      (ExecutionAuthorityKernel.admitRequest referenceHost referenceKernelConfig
        ⟨reachedStore referenceHost referenceConfig [.issue referenceRequest],
          [], [], [], 0⟩ forgedRequest).2.status = .admitted := by
  decide +kernel

end Hydrogenuine.Ueak
