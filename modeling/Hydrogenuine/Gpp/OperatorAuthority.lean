import Hydrogenuine.Core.ReferenceHost
import Hydrogenuine.Gpp.Engine

/-!
# Whose authority a permit rests on

`validate_permit_request` asks for the authority of the operator a request
names, which is `operator_ref` where there is one and `identity_ref` otherwise,
but it refuses on the answer only when the two are the same.  A request that is
in order otherwise and names another operator is granted whatever that operator
may do.
-/

namespace Hydrogenuine.Gpp

open Support Hydrogenuine.Core Governance

variable {host : Host} {config : AuthorityConfig}

/-- `validate_operator_authority` succeeds for the operator a request names. -/
def OperatorAuthorized
    (config : AuthorityConfig) (request : PermitRequest) : Prop :=
  (validateOperatorAuthority config.registry (operatorOf request)
    "approve_change" "").ok = true

/-- What the engine asks of a request at `now` besides the authority of its
operator, one field for each check. -/
structure InOrder
    (host : Host) (config : AuthorityConfig) (request : PermitRequest)
    (now : String) : Prop where
  requestor : request.requestorId ≠ some gppIssuer
  identity : isMissingIdentity request.identityRef = false
  admission :
    missingRef request.admissionRef ["adm:missing", "admission:missing"] = false
  freshness :
    missingRef request.freshnessRef ["tim:missing", "freshness:missing"] = false
  approval :
    if isText request.approvalExpiresAt then
      (validateApprovalWindow host request.approvalExpiresAt now).1 = true
    else endsWith (strip request.freshnessRef) "stale" = false
  evidence : request.evidenceRefs ≠ []
  proofs : request.proofBundleRefs ≠ []
  redaction :
    missingRef request.redactionRef ["sec:failed", "sec:redaction_failed"] = false
  payload :
    ∀ payload, request.redactionPayload = some payload →
      config.containsLeak payload = false
  retention : validateRetentionRef request.retentionRef = true
  capability :
    ∃ cap, lookupCapability request.capabilityRef = some cap ∧
      cap.bindAllowed = true ∧ request.scope.capabilityRef = cap.capabilityId ∧
      request.scope.effectClass = cap.effectClass
  decision :
    ∃ decision, lookupDecision request.authorityChainRef = some decision ∧
      decision.verdict = "allow"
  scope : request.scope.capabilityRef = request.capabilityRef
  window : ∃ expiresAt, expiresAtOf host now config.permitTtl = .ok expiresAt

/-! ## When each part of the validation refuses nothing -/

theorem reasonIf_eq_nil_iff {refuse : Bool} {code detail : String} :
    reasonIf refuse code detail = [] ↔ refuse = false := by
  cases refuse <;> simp [reasonIf]

theorem isMissingIdentity_empty : isMissingIdentity "" = true := by
  decide

variable {request : PermitRequest}

theorem operatorReasons_eq_nil_iff
    (hidentity : isMissingIdentity request.identityRef = false) :
    operatorReasons config request = [] ↔
      (operatorOf request = request.identityRef →
        OperatorAuthorized config request) := by
  unfold operatorReasons OperatorAuthorized
  by_cases hsame : operatorOf request = request.identityRef
  · have hne : request.identityRef ≠ "" := by
      intro hempty
      rw [hempty, isMissingIdentity_empty] at hidentity
      cases hidentity
    simp only [hsame, hne, hidentity, ne_eq, not_false_eq_true, and_self,
      and_true, if_true, forall_const]
    split_ifs with hok
    · simp [hok]
    · simpa using hok
  · simp [hsame]

theorem approvalReasons_eq_nil_iff {now : String} :
    approvalReasons host request now = [] ↔
      if isText request.approvalExpiresAt then
        (validateApprovalWindow host request.approvalExpiresAt now).1 = true
      else endsWith (strip request.freshnessRef) "stale" = false := by
  unfold approvalReasons
  cases request.approvalExpiresAt with
  | none => simp [isText]
  | some expiresAt =>
      by_cases hempty : expiresAt = ""
      · simp [isText, hempty]
      · simp [isText, hempty]

theorem redactionReasons_eq_nil_iff :
    redactionReasons config request = [] ↔
      missingRef request.redactionRef ["sec:failed", "sec:redaction_failed"] =
          false ∧
        ∀ payload, request.redactionPayload = some payload →
          config.containsLeak payload = false := by
  unfold redactionReasons
  split
  · next hmissing => simp [hmissing]
  · next hpresent =>
      cases request.redactionPayload with
      | none => simp [hpresent]
      | some payload => simp [hpresent]

theorem capabilityReasons_eq_nil_iff :
    capabilityReasons request = [] ↔
      ∃ cap, lookupCapability request.capabilityRef = some cap ∧
        cap.bindAllowed = true ∧
        request.scope.capabilityRef = cap.capabilityId ∧
        request.scope.effectClass = cap.effectClass := by
  unfold capabilityReasons
  cases lookupCapability request.capabilityRef with
  | none => simp
  | some cap =>
      simp only [Option.some.injEq, exists_eq_left']
      split_ifs with hbind hcapability heffect <;> simp_all

theorem decisionReasons_eq_nil_iff :
    decisionReasons request = [] ↔
      ∃ decision, lookupDecision request.authorityChainRef = some decision ∧
        decision.verdict = "allow" := by
  unfold decisionReasons
  cases lookupDecision request.authorityChainRef with
  | none => simp
  | some decision => simp

/-! ## When a permit is granted -/

/-- The engine grants a permit for the request. -/
def Grants
    (host : Host) (config : AuthorityConfig) (authority : PermitAuthority)
    (request : PermitRequest) : Prop :=
  ∃ decision, (authority.issue host config request).2 = .ok decision ∧
    decision.status = .granted

theorem validatePermitRequest_eq_nil_iff {now : String} :
    validatePermitRequest host config request now = [] ∧
        (∃ expiresAt, expiresAtOf host now config.permitTtl = .ok expiresAt) ↔
      InOrder host config request now ∧
        (operatorOf request = request.identityRef →
          OperatorAuthorized config request) := by
  constructor
  · rintro ⟨hnil, hwindow⟩
    simp only [validatePermitRequest, List.append_eq_nil_iff,
      reasonIf_eq_nil_iff, approvalReasons_eq_nil_iff,
      redactionReasons_eq_nil_iff, capabilityReasons_eq_nil_iff,
      decisionReasons_eq_nil_iff, List.isEmpty_eq_false_iff,
      decide_eq_false_iff_not, Bool.not_eq_false', not_not] at hnil
    obtain ⟨⟨⟨⟨⟨⟨⟨⟨⟨⟨⟨⟨hrequestor, hidentity⟩, hoperator⟩, hadmission⟩,
      hfreshness⟩, happroval⟩, hevidence⟩, hproofs⟩, hredaction, hpayload⟩,
      hretention⟩, hcapability⟩, hdecision⟩, hscope⟩ := hnil
    exact ⟨⟨hrequestor, hidentity, hadmission, hfreshness, happroval, hevidence,
      hproofs, hredaction, hpayload, hretention, hcapability, hdecision, hscope,
      hwindow⟩, (operatorReasons_eq_nil_iff hidentity).mp hoperator⟩
  · rintro ⟨horder, hoperator⟩
    refine ⟨?_, horder.window⟩
    simp only [validatePermitRequest, List.append_eq_nil_iff,
      reasonIf_eq_nil_iff, approvalReasons_eq_nil_iff,
      redactionReasons_eq_nil_iff, capabilityReasons_eq_nil_iff,
      decisionReasons_eq_nil_iff, List.isEmpty_eq_false_iff,
      decide_eq_false_iff_not, Bool.not_eq_false', not_not]
    exact ⟨⟨⟨⟨⟨⟨⟨⟨⟨⟨⟨⟨horder.requestor, horder.identity⟩,
      (operatorReasons_eq_nil_iff horder.identity).mpr hoperator⟩,
      horder.admission⟩, horder.freshness⟩, horder.approval⟩, horder.evidence⟩,
      horder.proofs⟩, horder.redaction, horder.payload⟩, horder.retention⟩,
      horder.capability⟩, horder.decision⟩, horder.scope⟩

/-- A permit is granted for the requests that are in order, with one question
about the operator only where the operator is the identity. -/
theorem grants_iff {authority : PermitAuthority} :
    Grants host config authority request ↔
      InOrder host config request (config.now authority.ticks) ∧
        (operatorOf request = request.identityRef →
          OperatorAuthorized config request) := by
  rw [← validatePermitRequest_eq_nil_iff]
  unfold Grants PermitAuthority.issue
  dsimp only
  cases hreasons : validatePermitRequest host config request
      (config.now authority.ticks) with
  | nil =>
      cases expiresAtOf host (config.now authority.ticks) config.permitTtl with
      | error e => simp
      | ok expiresAt => simp [PermitAuthority.grant]
  | cons reason reasons => simp [PermitAuthority.deny]

/-- A granted permit has an authorised operator unless the request names, next
to an identity that is in order, another operator without the authority. -/
theorem grants_authorized_iff
    (host : Host) (config : AuthorityConfig) (authority : PermitAuthority)
    (request : PermitRequest) :
    (Grants host config authority request → OperatorAuthorized config request) ↔
      operatorOf request = request.identityRef ∨
        OperatorAuthorized config request ∨
        ¬ InOrder host config request (config.now authority.ticks) := by
  rw [grants_iff]
  tauto

def strangersRequest : PermitRequest :=
  { referenceRequest with operatorRef := some "operator:stranger" }

theorem stranger_granted :
    Grants referenceHost referenceConfig (.init .empty) strangersRequest ∧
      ¬ OperatorAuthorized referenceConfig strangersRequest := by
  constructor
  · have hstatus : ((PermitAuthority.init .empty).issue referenceHost
        referenceConfig strangersRequest).2.toOption.map PermitDecision.status =
          some .granted := by
      decide +kernel
    unfold Grants
    cases hreply : ((PermitAuthority.init .empty).issue referenceHost
        referenceConfig strangersRequest).2 with
    | error e =>
        rw [hreply] at hstatus
        cases hstatus
    | ok decision =>
        rw [hreply] at hstatus
        exact ⟨decision, rfl, Option.some.inj hstatus⟩
  · unfold OperatorAuthorized
    decide +kernel

end Hydrogenuine.Gpp
