import Hydrogenuine.Core.Host

/-!
# Permit authority models

Embedding of `hg_gpp/models.py`.  A `GovernedPermit` is the body of a permit
together with the hash it claims for itself; `PermitBody.seal` is the
constructor, which computes that hash over every other field.
-/

namespace Hydrogenuine.Gpp

open Support Hydrogenuine.Core

inductive PermitStatus where
  | granted
  | denied
  | expired
  | revoked
  | invalid
deriving DecidableEq

def PermitStatus.text : PermitStatus → String
  | .granted => "granted"
  | .denied => "denied"
  | .expired => "expired"
  | .revoked => "revoked"
  | .invalid => "invalid"

inductive PermitKind where
  | publish
  | execute
deriving DecidableEq

def PermitKind.text : PermitKind → String
  | .publish => "publish"
  | .execute => "execute"

structure PermitDenyReason where
  code : String
  detail : String
deriving DecidableEq

def PermitDenyReason.toPayload (reason : PermitDenyReason) : PyVal :=
  .dict [("code", .str reason.code), ("detail", .str reason.detail)]

structure PermitEvidenceRef where
  refId : String
  kind : String
deriving DecidableEq

def PermitEvidenceRef.toPayload (evidence : PermitEvidenceRef) : PyVal :=
  .dict [("ref_id", .str evidence.refId), ("kind", .str evidence.kind)]

structure PermitScope where
  capabilityRef : String
  effectClass : String
  requestedActionType : String
  allowedActions : List String
deriving DecidableEq

namespace PermitScope

def toPayload (scope : PermitScope) : PyVal :=
  .dict [
    ("capability_ref", .str scope.capabilityRef),
    ("effect_class", .str scope.effectClass),
    ("requested_action_type", .str scope.requestedActionType),
    ("allowed_actions", .ofStrings scope.allowedActions)]

/-- `PermitScope.matches`. -/
def admits
    (scope : PermitScope) (capabilityRef effectClass actionType : String) : Bool :=
  if scope.capabilityRef ≠ capabilityRef ∨ scope.effectClass ≠ effectClass then
    false
  else if scope.allowedActions ≠ [] ∧ actionType ∉ scope.allowedActions then
    false
  else
    decide (scope.requestedActionType = actionType ∨
      actionType ∈ scope.allowedActions)

end PermitScope

structure PermitRequest where
  requestId : String
  subjectId : String
  agentId : String
  requestedActionType : String
  scope : PermitScope
  evidenceRefs : List PermitEvidenceRef
  proofBundleRefs : List String
  identityRef : String
  admissionRef : String
  freshnessRef : String
  redactionRef : String
  retentionRef : String
  capabilityRef : String
  riskClass : String
  authorityChainRef : String
  operatorRef : Option String
  approvalExpiresAt : Option String
  requestorId : Option String
  permitKind : PermitKind
  redactionPayload : Option PyVal

/-- Every field of a governed permit except its hash. -/
structure PermitBody where
  permitId : String
  requestId : String
  subjectId : String
  agentId : String
  operatorRef : Option String
  authorityChainRef : String
  requestedActionType : String
  scope : PermitScope
  evidenceRefs : List PermitEvidenceRef
  proofBundleRefs : List String
  identityRef : String
  admissionRef : String
  freshnessRef : String
  redactionRef : String
  retentionRef : String
  capabilityRef : String
  riskClass : String
  issuedAt : String
  expiresAt : String
  status : PermitStatus
  denyReasons : List PermitDenyReason
  revokedAt : Option String
  permitKind : PermitKind
deriving DecidableEq

/-- `GovernedPermit`: the fields and the hash the object carries. -/
structure GovernedPermit extends PermitBody where
  permitHash : String
deriving DecidableEq

/-- `GovernedPermit.to_payload(include_hash=False)`. -/
def PermitBody.toPayload (p : PermitBody) : PyVal :=
  .dict [
    ("schema", .str "gpp-governed-permit"),
    ("schema_version", .str "1.0"),
    ("permit_id", .str p.permitId),
    ("request_id", .str p.requestId),
    ("subject_id", .str p.subjectId),
    ("agent_id", .str p.agentId),
    ("operator_ref", .ofOption p.operatorRef),
    ("authority_chain_ref", .str p.authorityChainRef),
    ("requested_action_type", .str p.requestedActionType),
    ("scope", p.scope.toPayload),
    ("evidence_refs", .list (p.evidenceRefs.map PermitEvidenceRef.toPayload)),
    ("proof_bundle_refs", .ofStrings p.proofBundleRefs),
    ("identity_ref", .str p.identityRef),
    ("admission_ref", .str p.admissionRef),
    ("freshness_ref", .str p.freshnessRef),
    ("redaction_ref", .str p.redactionRef),
    ("retention_ref", .str p.retentionRef),
    ("capability_ref", .str p.capabilityRef),
    ("risk_class", .str p.riskClass),
    ("issued_at", .str p.issuedAt),
    ("expires_at", .str p.expiresAt),
    ("revoked_at", .ofOption p.revokedAt),
    ("status", .str p.status.text),
    ("deny_reasons", .list (p.denyReasons.map PermitDenyReason.toPayload)),
    ("permit_kind", .str p.permitKind.text)]

/-- `GovernedPermit.__post_init__`: the hash of a constructed permit is computed
from its other fields. -/
def PermitBody.seal (host : Host) (p : PermitBody) : GovernedPermit :=
  { p with permitHash := host.canonicalHash p.toPayload }

structure PermitRevocation where
  permitId : String
  revokedAt : String
  reasonCode : String
  revokerRef : String
deriving DecidableEq

structure PermitReceipt where
  receiptId : String
  permitId : String
  requestId : String
  status : PermitStatus
  issuedAt : String
  permitHash : String
  receiptHash : String

/-- `PermitReceipt.__post_init__`. -/
def sealReceipt
    (host : Host) (receiptId permitId requestId : String) (status : PermitStatus)
    (issuedAt permitHash : String) : PermitReceipt where
  receiptId := receiptId
  permitId := permitId
  requestId := requestId
  status := status
  issuedAt := issuedAt
  permitHash := permitHash
  receiptHash := host.canonicalHash (.dict [
    ("schema", .str "gpp-permit-receipt"),
    ("schema_version", .str "1.0"),
    ("receipt_id", .str receiptId),
    ("permit_id", .str permitId),
    ("request_id", .str requestId),
    ("status", .str status.text),
    ("issued_at", .str issuedAt),
    ("permit_hash", .str permitHash)])

structure PermitDecision where
  status : PermitStatus
  permit : Option GovernedPermit
  denyReasons : List PermitDenyReason
  receipt : Option PermitReceipt

end Hydrogenuine.Gpp
