import Hydrogenuine.Lease.World

/-!
# The lease authority

Embedding of `hg_lease/gpp_bridge.py`: minting a lease from a confirmed policy,
authorizing a request, and the lifecycle operations.  An allowance mints a
permit through the permit authority, records it under the lease and spends one
use.
-/

namespace Hydrogenuine.Lease

open Support Hydrogenuine.Core Gpp

structure OperatorConfirmation where
  operatorId : String
  policyHash : String
  confirmedAt : String
  displaySummaryShown : String

structure AuthorizedAction where
  decision : Decision
  permitId : Option String
  receiptId : String
  restrictionResults : List String

/-- The two opening transitions of a draft, with their events. -/
def openLease
    (draft : CapabilityLease)
    (submitReason confirmReason nowWall confirmDetail : String) :
    Except PyError
      (CapabilityLease × Option LifecycleEvent × Option LifecycleEvent) :=
  match applyTransition draft .submit (draft.leaseId ++ ":submit") submitReason
      nowWall "" with
  | .error e => .error e
  | .ok (submitted, first) =>
      match applyTransition submitted .confirm (submitted.leaseId ++ ":confirm")
          confirmReason nowWall confirmDetail with
      | .error e => .error e
      | .ok (lease, second) => .ok (lease, first, second)

def lifecycleReceipt
    (decisionId outcome nowWall snapshotHash : String)
    (leaseHash policyHash : Option String) (detail : String) :
    ReceiptFields where
  decisionId := decisionId
  outcome := outcome
  attemptedAt := nowWall
  situationSnapshotHash := snapshotHash
  leaseHash := leaseHash
  policyHash := policyHash
  adapterRequestHash := none
  adapterResultHash := none
  completedAt := some nowWall
  correctionOf := none
  detail := detail

/-- `receipt["receipt_id"]`. -/
def receiptIdOf (receipt : Receipt) : String :=
  match receipt.get? "receipt_id" with
  | some (.str receiptId) => receiptId
  | _ => ""

namespace LeaseWorld

def policyFor (s : LeaseWorld) (lease : CapabilityLease) :
    Option CanonicalPolicy :=
  s.policies.get? lease.policyHash

def findLease (s : LeaseWorld) (request : ActionRequest) :
    Option CapabilityLease :=
  (s.leases.activeFor request.subject request.actionType request.objectId).head?

/-- `self._minted_permits.get(lease_id, [])`. -/
def minted (s : LeaseWorld) (leaseId : String) : List String :=
  (s.mintedPermits.get? leaseId).getD []

end LeaseWorld

variable (env : LeaseEnv)

/-! ## Minting -/

/-- The record that `mint_lease` drafts from a policy. -/
def draftLease
    (policy : CanonicalPolicy) (policyHash subject leaseId handle : String)
    (now : String × ℚ) (supersedesLeaseId : Option String) :
    CapabilityLease where
  leaseId := leaseId
  policyId := policy.policyId
  policyHash := policyHash
  issuer := policy.issuerOperatorId
  subject := subject
  actionScope := policy.actions
  objectScope := policy.objects
  purposeScope := [policy.purpose]
  issuedAtWall := now.1
  issuedAtMonotonicAnchor := now.2
  notBefore := policy.validFrom
  expiresAt := policy.validUntil
  riskClass := policy.riskClass
  state := .draft
  remainingUses := policy.useLimit
  parentLeaseId := none
  supersedesLeaseId := supersedesLeaseId
  revocationHandle := "rvk_" ++ handle
  provenanceRefs := policy.sourceConversationRefs
  appliedEventIds := []

/-- The supersession step of `mint_lease`. -/
def supersedeOld (supersedesLeaseId : Option String) (leaseId : String) :
    LeaseM PUnit :=
  match supersedesLeaseId with
  | some old =>
      if old = "" then pure ⟨⟩
      else
        transition env old .supersede "lease.superseded_by_new_policy"
          ("superseded_by=" ++ leaseId)
  | none => pure ⟨⟩

def mintLease
    (policy : CanonicalPolicy) (confirmation : OperatorConfirmation)
    (supersedesLeaseId : Option String) : LeaseM CapabilityLease := do
  let now ← readClock env
  let policyHash := policy.canonicalPolicyHash env.host
  if confirmation.policyHash ≠ policyHash then
    throw (.leaseAuthority
      "confirmation does not match canonical policy hash — refusing to mint")
  else if confirmation.operatorId ≠ policy.issuerOperatorId then
    throw (.leaseAuthority "confirmation operator differs from policy issuer")
  else if confirmation.displaySummaryShown ≠ policy.displaySummary then
    throw (.leaseAuthority
      "operator was shown a different summary than the canonical policy")
  else
    let digits ← drawUuid env
    match policy.subjects with
    | [] => throw .indexError
    | subject :: _ =>
        let handle ← drawUuid env
        let draft := draftLease policy policyHash subject (leaseIdOf digits)
          handle now supersedesLeaseId
        let (lease, first, second) ← raising (openLease draft "lease.submitted"
          "lease.operator_confirmed" now.1
          ("operator=" ++ confirmation.operatorId))
        modify fun s =>
          { s with policies := s.policies.set policyHash policy }
        putLease lease first
        putLease lease second
        supersedeOld env supersedesLeaseId lease.leaseId
        let s ← get
        let _ ← fileReceipt env (lifecycleReceipt ("mint_" ++ lease.leaseId)
          "LEASE_MINTED" now.1
          (snapshotHash env.host (snapshot s.situation now.1))
          (some (lease.leaseHash env.host)) (some policyHash)
          ("operator=" ++ confirmation.operatorId))
        return lease

/-! ## Authorization -/

def runHooks
    (request : ActionRequest) (lease : CapabilityLease) (decision : Decision) :
    Except PyError (List String) :=
  (env.hooks.mapM fun (hook : RestrictionHook) =>
    hook request lease decision).map (·.filterMap id)

def Decision.denied (decision : Decision) (reasons : List String) : Decision :=
  { decision with
    outcome := .deny
    reasonCodes := decision.reasonCodes ++ reasons }

/-- The permit request of `_mint_execution_permit`. -/
def executionPermitRequest
    (request : ActionRequest) (lease : CapabilityLease) (decision : Decision) :
    PermitRequest where
  requestId := "leasex_" ++ request.requestId
  subjectId := request.subject
  agentId := env.agentId
  requestedActionType := request.actionType
  scope := ⟨env.capabilityRef, env.effectClass, request.actionType,
    [request.actionType]⟩
  evidenceRefs := [⟨"lease:" ++ lease.leaseId, "lease"⟩,
    ⟨"trace:" ++ decision.decisionTraceHash, "decision"⟩]
  proofBundleRefs := ["lease_decision:" ++ decision.decisionId]
  identityRef := lease.issuer
  admissionRef := env.admissionRef
  freshnessRef := "tim:approval_window_ok"
  redactionRef := "sec:redaction_passed"
  retentionRef := env.retentionRef
  capabilityRef := env.capabilityRef
  riskClass := lower lease.riskClass
  authorityChainRef := env.authorityChainRef
  operatorRef := some lease.issuer
  approvalExpiresAt := some lease.expiresAt
  requestorId := some env.agentId
  permitKind := .execute
  redactionPayload := none

def mintExecutionPermit
    (request : ActionRequest) (lease : CapabilityLease) (decision : Decision) :
    LeaseM (Option String) := do
  let s ← get
  let issued := { s.gpp with uuids := s.uuids }.issue env.host env.gpp
    (executionPermitRequest env request lease decision)
  modify fun s => { s with gpp := issued.1, uuids := issued.1.uuids }
  let permitDecision ← raising issued.2
  match permitDecision.status, permitDecision.permit with
  | .granted, some permit =>
      modify fun s =>
        { s with
          mintedPermits := s.mintedPermits.set lease.leaseId
            (s.minted lease.leaseId ++ [permit.permitId]) }
      return some permit.permitId
  | _, _ => return none

def consume (lease : CapabilityLease) : LeaseM PUnit := do
  let s ← get
  match s.leases.get lease.leaseId with
  | none => return
  | some current =>
      let (updated, exhausted) := consumeUse current
      putLease updated none
      if exhausted then
        transition env updated.leaseId .exhaust "lease.uses_exhausted" ""
      else return

/-- The decision of `authorize` before any permit is minted: evaluation, the
record of the request id, and the restriction hooks. -/
def decideRequest
    (request : ActionRequest) :
    LeaseM (Option CapabilityLease × Decision × List String) := do
  let now ← readClock env
  let s ← get
  let facts := snapshot s.situation now.1
  let lease := s.findLease request
  let policy := lease.bind s.policyFor
  let (outcome, reasons) ← raising (verdict env.host request lease policy facts
    now.1 now.2 s.seenRequestIds)
  let digits ← drawUuid env
  let decision := newDecision env.host request outcome reasons lease
    (snapshotHash env.host facts) now.1 ("dec_" ++ digits)
  modify fun s =>
    { s with seenRequestIds := request.requestId :: s.seenRequestIds }
  match decision.outcome, lease with
  | .allow, some l =>
      let vetoes ← raising (runHooks env request l decision)
      if vetoes = [] then return (lease, decision, [])
      else
        return (lease, decision.denied (vetoes.map ("restriction." ++ ·)),
          vetoes)
  | _, _ => return (lease, decision, [])

/-- The permit stage of `authorize`: an allowance that the permit authority
refuses becomes a denial, one that it grants spends a use. -/
def bindPermit
    (request : ActionRequest) (lease : Option CapabilityLease)
    (decision : Decision) : LeaseM (Decision × Option String) := do
  match decision.outcome, lease with
  | .allow, some l =>
      let permitId ← mintExecutionPermit env request l decision
      match permitId with
      | none => return (decision.denied ["gpp.permit_denied"], none)
      | some permitId =>
          consume env l
          return (decision, some permitId)
  | _, _ => return (decision, none)

def authorize (request : ActionRequest) : LeaseM AuthorizedAction := do
  let (lease, decided, vetoes) ← decideRequest env request
  let (decision, permitId) ← bindPermit env request lease decided
  let receipt ← fileReceipt env
    { decisionId := decision.decisionId
      outcome := decision.outcome.text
      attemptedAt := decision.createdAt
      situationSnapshotHash := decision.situationSnapshotHash
      leaseHash := lease.map (CapabilityLease.leaseHash env.host)
      policyHash := lease.map CapabilityLease.policyHash
      adapterRequestHash := none
      adapterResultHash := none
      completedAt := none
      correctionOf := none
      detail := ",".intercalate decision.reasonCodes }
  return ⟨decision, permitId, receiptIdOf receipt, vetoes⟩

/-! ## Lifecycle -/

def suspendLease (leaseId reasonCode : String) : LeaseM PUnit :=
  transition env leaseId .suspend reasonCode ""

def resumeLease (leaseId reasonCode : String) : LeaseM PUnit := do
  let (nowWall, _) ← readClock env
  let s ← get
  match s.leases.get leaseId with
  | none => return
  | some lease =>
      if lease.expiresAt ≤ nowWall then
        transition env leaseId .expire "lease.expired_during_suspension" ""
      else transition env leaseId .resume reasonCode ""

def expireLease (leaseId : String) : LeaseM PUnit :=
  transition env leaseId .expire "lease.window_elapsed" ""

def revokePermit
    (permitId nowWall reasonCode revokerRef : String) : LeaseM PUnit :=
  modify fun s =>
    { s with
      gpp := (s.gpp.revoke env.host
        ⟨permitId, nowWall, reasonCode, revokerRef⟩).1 }

def revokeLease (leaseId revokerRef reasonCode : String) : LeaseM PUnit := do
  transition env leaseId .revoke reasonCode ("revoker=" ++ revokerRef)
  let (nowWall, _) ← readClock env
  let s ← get
  (s.minted leaseId).forM fun permitId =>
    revokePermit env permitId nowWall reasonCode revokerRef
  let _ ← fileReceipt env (lifecycleReceipt ("revoke_" ++ leaseId)
    "LEASE_REVOKED" nowWall
    (snapshotHash env.host (snapshot s.situation nowWall)) none none
    ("revoker=" ++ revokerRef ++ ";reason=" ++ reasonCode))
  return

def revokeAll (revokerRef : String) : LeaseM ℕ := do
  let s ← get
  let active := (s.leases.all.filter fun lease => lease.state.isLive).map
    CapabilityLease.leaseId
  active.forM fun leaseId =>
    revokeLease env leaseId revokerRef "lease.revoke_all"
  return active.length

end Hydrogenuine.Lease
