import Hydrogenuine.Core.Iam
import Hydrogenuine.Governance.CapabilityRegistry
import Hydrogenuine.Gpp.Store

/-!
# The permit engine

Embedding of `hg_gpp/validation.py` and `hg_gpp/engine.py`: a request is checked
against identity, admission, freshness, evidence, redaction, retention,
capability and decision provenance, every failure is collected, and a permit is
minted and stored only when nothing was collected.
-/

namespace Hydrogenuine.Gpp

open Support Hydrogenuine.Core Governance

/-- What a `PermitAuthority` is configured with.  `now` gives the `n`-th reading
of its clock, `permitTtl` is in microseconds, and `containsLeak` stands for the
secret scanner of `hg_core/secrets`. -/
structure AuthorityConfig where
  registry : OperatorRegistry
  containsLeak : PyVal → Bool
  permitTtl : ℤ
  now : ℕ → String

def gppIssuer : String := "gpp:permit_authority"

def placeholderIdentity : List String :=
  ["", "placeholder", "unknown", "TBD", "operator_id"]

def isMissingIdentity (identityRef : String) : Bool :=
  let raw := strip identityRef
  decide (raw ∈ placeholderIdentity) || startsWith raw "agent:" ||
    raw == "agent:zero" || modelActorPrefixes.any (startsWith (lower raw))

def validateRetentionRef (retentionRef : String) : Bool :=
  let raw := strip retentionRef
  if raw = "" ∨ raw ∈ ["ret:missing", "ret:failed", "retention:missing"] then
    false
  else if startsWith raw "ret:" && decide (4 < raw.length) then true
  else raw != ""

def missingRef (ref : String) (missing : List String) : Bool :=
  let raw := strip ref
  raw == "" || decide (raw ∈ missing)

/-- `operator or identity`: the operator whose authority is checked. -/
def operatorOf (request : PermitRequest) : String :=
  match request.operatorRef with
  | none => request.identityRef
  | some op => if op = "" then request.identityRef else op

/-- The IAM part of `validate_permit_request`. -/
def operatorReasons
    (config : AuthorityConfig) (request : PermitRequest) :
    List PermitDenyReason :=
  let operator := operatorOf request
  if operator ≠ "" ∧ isMissingIdentity operator = false then
    let auth := validateOperatorAuthority config.registry operator
      "approve_change" ""
    if auth.ok = false ∧ operator = request.identityRef then
      [⟨"gpp.denied.missing_identity", auth.reasonCode⟩]
    else []
  else []

/-- The TIM part of `validate_permit_request`. -/
def approvalReasons
    (host : Host) (request : PermitRequest) (now : String) :
    List PermitDenyReason :=
  let freshness := strip request.freshnessRef
  match request.approvalExpiresAt with
  | some expiresAt =>
      if expiresAt ≠ "" then
        let window := validateApprovalWindow host (some expiresAt) now
        if window.1 then []
        else [⟨"gpp.denied.stale_approval", window.2⟩]
      else if endsWith freshness "stale" then
        [⟨"gpp.denied.stale_approval", staleApproval⟩]
      else []
  | none =>
      if endsWith freshness "stale" then
        [⟨"gpp.denied.stale_approval", staleApproval⟩]
      else []

/-- The SEC part of `validate_permit_request`. -/
def redactionReasons
    (config : AuthorityConfig) (request : PermitRequest) :
    List PermitDenyReason :=
  if missingRef request.redactionRef ["sec:failed", "sec:redaction_failed"] then
    [⟨"gpp.denied.redaction_failure", "SEC redaction evidence required"⟩]
  else
    match request.redactionPayload with
    | none => []
    | some payload =>
        if config.containsLeak payload then
          [⟨"gpp.denied.redaction_failure", "secret leak in redaction payload"⟩]
        else []

/-- The capability part of `validate_permit_request`. -/
def capabilityReasons (request : PermitRequest) : List PermitDenyReason :=
  match lookupCapability request.capabilityRef with
  | none => [⟨"gpp.denied.unknown_capability", request.capabilityRef⟩]
  | some cap =>
      if cap.bindAllowed = false then
        [⟨"gpp.denied.bind_not_allowed", cap.capabilityId⟩]
      else if request.scope.capabilityRef ≠ cap.capabilityId then
        [⟨"gpp.denied.capability_mismatch", "scope capability mismatch"⟩]
      else if request.scope.effectClass ≠ cap.effectClass then
        [⟨"gpp.denied.capability_mismatch", "effect_class mismatch"⟩]
      else []

/-- The decision-provenance part of `validate_permit_request`. -/
def decisionReasons (request : PermitRequest) : List PermitDenyReason :=
  match lookupDecision request.authorityChainRef with
  | none => [⟨"gpp.denied.decision_denied", "unknown authority chain ref"⟩]
  | some decision =>
      if decision.verdict ≠ "allow" then
        [⟨"gpp.denied.decision_denied", decision.reasonCode.getD "denied"⟩]
      else []

/-- One collected refusal when `refuse` holds. -/
def reasonIf (refuse : Bool) (code detail : String) : List PermitDenyReason :=
  if refuse then [⟨code, detail⟩] else []

/-- `validate_permit_request`: every refusal, in the order of the source. -/
def validatePermitRequest
    (host : Host) (config : AuthorityConfig) (request : PermitRequest)
    (now : String) : List PermitDenyReason :=
  reasonIf (decide (request.requestorId = some gppIssuer))
      "gpp.denied.self_mint" "requestor cannot mint permits" ++
    reasonIf (isMissingIdentity request.identityRef)
      "gpp.denied.missing_identity" "IAM identity required" ++
    operatorReasons config request ++
    reasonIf (missingRef request.admissionRef ["adm:missing", "admission:missing"])
      "gpp.denied.missing_admission" "ADM admission token required" ++
    reasonIf (missingRef request.freshnessRef ["tim:missing", "freshness:missing"])
      "gpp.denied.missing_freshness" "TIM freshness ref required" ++
    approvalReasons host request now ++
    reasonIf request.evidenceRefs.isEmpty
      "gpp.denied.missing_evidence" "evidence_refs required" ++
    reasonIf request.proofBundleRefs.isEmpty
      "gpp.denied.missing_proof_refs" "proof_bundle_refs required" ++
    redactionReasons config request ++
    reasonIf (!validateRetentionRef request.retentionRef)
      "gpp.denied.retention_failure" "RET retention evidence required" ++
    capabilityReasons request ++
    decisionReasons request ++
    reasonIf (decide (request.scope.capabilityRef ≠ request.capabilityRef))
      "gpp.denied.scope_mismatch" "scope vs capability_ref"

/-! ## Minting -/

structure MintLogEntry where
  event : String
  permitId : String
  requestId : String
  permitHash : Option String
  receiptHash : Option String
  denyReasons : List String

/-- The state of a `PermitAuthority`; `ticks` counts its clock readings and
`uuids` the identifiers drawn so far. -/
structure PermitAuthority where
  store : PermitStore
  mintLog : List MintLogEntry
  ticks : ℕ
  uuids : ℕ

def PermitAuthority.init (store : PermitStore) : PermitAuthority :=
  ⟨store, [], 0, 0⟩

/-- `_expires_at`. -/
def expiresAtOf (host : Host) (issuedAt : String) (ttl : ℤ) :
    Except PyError String :=
  match host.fromisoformat (replaceZ issuedAt) with
  | none => .error (.valueError "Invalid isoformat string")
  | some issued =>
      match host.formatMillisZ (issued.instant + ttl) with
      | none => .error .overflowError
      | some text => .ok text

/-- The id of a granted permit: twelve digits of the hash of request and time. -/
def permitIdOf (host : Host) (requestId issuedAt : String) : String :=
  "gpp_" ++ slice (host.canonicalHash (.dict [
    ("request_id", .str requestId), ("issued_at", .str issuedAt)])) 7 19

def permitOf
    (request : PermitRequest) (permitId issuedAt expiresAt : String)
    (status : PermitStatus) (denyReasons : List PermitDenyReason) :
    PermitBody where
  permitId := permitId
  requestId := request.requestId
  subjectId := request.subjectId
  agentId := request.agentId
  operatorRef := request.operatorRef
  authorityChainRef := request.authorityChainRef
  requestedActionType := request.requestedActionType
  scope := request.scope
  evidenceRefs := request.evidenceRefs
  proofBundleRefs := request.proofBundleRefs
  identityRef := request.identityRef
  admissionRef := request.admissionRef
  freshnessRef := request.freshnessRef
  redactionRef := request.redactionRef
  retentionRef := request.retentionRef
  capabilityRef := request.capabilityRef
  riskClass := request.riskClass
  issuedAt := issuedAt
  expiresAt := expiresAt
  status := status
  denyReasons := denyReasons
  revokedAt := none
  permitKind := request.permitKind

namespace PermitAuthority

/-- `PermitAuthority._deny`: nothing is stored. -/
def deny
    (host : Host) (authority : PermitAuthority) (request : PermitRequest)
    (reasons : List PermitDenyReason) (now : String) :
    PermitAuthority × PermitDecision :=
  let permitId := "gpp_denied_" ++
    slice (host.canonicalHash (.str request.requestId)) 7 15
  let permit := (permitOf request permitId now now .denied reasons).seal host
  let receipt := sealReceipt host ("rcpt_" ++ host.uuidHex authority.uuids)
    permitId request.requestId .denied now permit.permitHash
  ({ authority with
      uuids := authority.uuids + 1
      mintLog := authority.mintLog ++
        [⟨"gpp.permit.denied", permitId, request.requestId, none, none,
          reasons.map PermitDenyReason.code⟩] },
    ⟨.denied, some permit, reasons, some receipt⟩)

/-- The granting branch of `PermitAuthority.issue`. -/
def grant
    (host : Host) (authority : PermitAuthority) (request : PermitRequest)
    (now expiresAt : String) : PermitAuthority × PermitDecision :=
  let permitId := permitIdOf host request.requestId now
  let permit := (permitOf request permitId now expiresAt .granted []).seal host
  let receipt := sealReceipt host ("rcpt_" ++ host.uuidHex authority.uuids)
    permitId request.requestId .granted now permit.permitHash
  ({ authority with
      store := authority.store.put permit
      uuids := authority.uuids + 1
      mintLog := authority.mintLog ++
        [⟨"gpp.permit.granted", permitId, request.requestId,
          some permit.permitHash, some receipt.receiptHash, []⟩] },
    ⟨.granted, some permit, [], some receipt⟩)

def issue
    (host : Host) (config : AuthorityConfig) (authority : PermitAuthority)
    (request : PermitRequest) :
    PermitAuthority × Except PyError PermitDecision :=
  let now := config.now authority.ticks
  let authority := { authority with ticks := authority.ticks + 1 }
  match validatePermitRequest host config request now with
  | [] =>
      match expiresAtOf host now config.permitTtl with
      | .error e => (authority, .error e)
      | .ok expiresAt =>
          let granted := authority.grant host request now expiresAt
          (granted.1, .ok granted.2)
  | reason :: reasons =>
      let denied := authority.deny host request (reason :: reasons) now
      (denied.1, .ok denied.2)

def revoke
    (host : Host) (authority : PermitAuthority)
    (revocation : PermitRevocation) : PermitAuthority × Bool :=
  let revoked := authority.store.revoke host revocation
  ({ authority with store := revoked.1 }, revoked.2)

/-- What one `issue` can do to the store: nothing, or file one freshly granted
permit, which is then the permit of the decision. -/
theorem issue_cases
    (host : Host) (config : AuthorityConfig) (authority : PermitAuthority)
    (request : PermitRequest) :
    ((authority.issue host config request).1.store = authority.store ∧
        ∀ decision, (authority.issue host config request).2 = .ok decision →
          decision.status = .denied) ∨
      ∃ permit decision,
        (authority.issue host config request).1.store =
            authority.store.put permit ∧
          (authority.issue host config request).2 = .ok decision ∧
          decision.status = .granted ∧ decision.permit = some permit ∧
          permit.status = .granted := by
  unfold issue
  dsimp only
  split
  · split
    · refine Or.inl ⟨rfl, ?_⟩
      intro decision hdecision
      cases hdecision
    · exact Or.inr ⟨_, _, rfl, rfl, rfl, rfl, rfl⟩
  · refine Or.inl ⟨rfl, ?_⟩
    intro decision hdecision
    cases hdecision
    rfl

theorem uuids_le_issue
    (host : Host) (config : AuthorityConfig) (authority : PermitAuthority)
    (request : PermitRequest) :
    authority.uuids ≤ (authority.issue host config request).1.uuids := by
  unfold issue
  dsimp only
  split
  · split
    · exact le_rfl
    · exact Nat.le_succ _
  · exact Nat.le_succ _

@[simp] theorem isConsumed_issue
    (host : Host) (config : AuthorityConfig) (authority : PermitAuthority)
    (request : PermitRequest) (permitId : String) :
    (authority.issue host config request).1.store.isConsumed permitId =
      authority.store.isConsumed permitId := by
  rcases authority.issue_cases host config request with
    ⟨hstore, -⟩ | ⟨permit, decision, hstore, -⟩
  · rw [hstore]
  · rw [hstore, PermitStore.isConsumed_put]

@[simp] theorem isRevoked_issue
    (host : Host) (config : AuthorityConfig) (authority : PermitAuthority)
    (request : PermitRequest) (permitId : String) :
    (authority.issue host config request).1.store.isRevoked permitId =
      authority.store.isRevoked permitId := by
  rcases authority.issue_cases host config request with
    ⟨hstore, -⟩ | ⟨permit, decision, hstore, -⟩
  · rw [hstore]
  · rw [hstore, PermitStore.isRevoked_put]

end PermitAuthority

/-! ## A reference configuration -/

def referenceRegistry : OperatorRegistry where
  tenantId := "local"
  operators :=
    [⟨"operator:owner", "Owner", ["approve_change"], "key:owner", "active"⟩]
  legacyAliases := Dict.empty
  registryHash := "sha256:registry"

def referenceConfig : AuthorityConfig where
  registry := referenceRegistry
  containsLeak _ := false
  permitTtl := 30000000
  now _ := "2026-03-01T12:00:00.000Z"

def referenceRequest : PermitRequest where
  requestId := "req-1"
  subjectId := "subject:1"
  agentId := "agent:0"
  requestedActionType := "oea_stub_log"
  scope := ⟨"cap.oea_stub_log", "audit_log", "oea_stub_log", ["oea_stub_log"]⟩
  evidenceRefs := [⟨"evd:1", "trace"⟩]
  proofBundleRefs := ["proof:1"]
  identityRef := "operator:owner"
  admissionRef := "adm:1"
  freshnessRef := "tim:approval_window_ok"
  redactionRef := "sec:redaction_passed"
  retentionRef := "ret:evidence_1"
  capabilityRef := "cap.oea_stub_log"
  riskClass := "low"
  authorityChainRef := "dec_allow_stub"
  operatorRef := some "operator:owner"
  approvalExpiresAt := none
  requestorId := some "agent:0"
  permitKind := .execute
  redactionPayload := none

end Hydrogenuine.Gpp
