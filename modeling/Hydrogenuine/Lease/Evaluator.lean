import Hydrogenuine.Lease.Stores

/-!
# The lease evaluator

Embedding of `hg_lease/evaluator.py`: one action request against one lease, its
policy, a snapshot of the situation and a clock reading.  Every check that
fails adds a reason, and only a decision without reasons allows.
-/

namespace Hydrogenuine.Lease

open Support Hydrogenuine.Core

inductive Outcome where
  | allow
  | deny
  | ask
  | error
deriving DecidableEq

def Outcome.text : Outcome → String
  | allow => "ALLOW"
  | deny => "DENY"
  | ask => "ASK_REVALIDATE"
  | error => "ERROR_FAIL_CLOSED"

structure ActionRequest where
  requestId : String
  subject : String
  actionType : String
  objectId : String
  purpose : String
  requestedAt : String
  parameters : List (String × PyVal)
  contextRefs : List String

def ActionRequest.toPayload (request : ActionRequest) : PyVal :=
  .dict [
    ("schema_version", .str "hg.action.v1"),
    ("request_id", .str request.requestId),
    ("subject", .str request.subject),
    ("action_type", .str request.actionType),
    ("object_id", .str request.objectId),
    ("purpose", .str request.purpose),
    ("parameters", .dict request.parameters),
    ("requested_at", .str request.requestedAt),
    ("context_refs", .ofStrings request.contextRefs)]

structure Decision where
  decisionId : String
  requestId : String
  outcome : Outcome
  leaseId : Option String
  reasonCodes : List String
  situationSnapshotHash : String
  riskClass : String
  decisionTraceHash : String
  createdAt : String
deriving DecidableEq

/-- `_decision`, given the id that was drawn for it. -/
def newDecision
    (host : Host) (request : ActionRequest) (outcome : Outcome)
    (reasons : List String) (lease : Option CapabilityLease)
    (snapshotHash nowWall decisionId : String) : Decision where
  decisionId := decisionId
  requestId := request.requestId
  outcome := outcome
  leaseId := lease.map CapabilityLease.leaseId
  reasonCodes := sortTexts reasons
  situationSnapshotHash := snapshotHash
  riskClass := (lease.map CapabilityLease.riskClass).getD "UNKNOWN"
  decisionTraceHash := host.canonicalHash (.dict [
    ("request", request.toPayload),
    ("lease_id", .ofOption (lease.map CapabilityLease.leaseId)),
    ("lease_hash", .ofOption (lease.map (CapabilityLease.leaseHash host))),
    ("outcome", .str outcome.text),
    ("reason_codes", .ofStrings (sortTexts reasons)),
    ("situation_snapshot_hash", .str snapshotHash),
    ("now_wall", .str nowWall)])
  createdAt := nowWall

/-! ## The checks -/

/-- One reason when `fails` holds. -/
def reasonWhen (fails : Bool) (reason : String) : List String :=
  if fails then [reason] else []

def standingReasons (lease : CapabilityLease) (nowWall : String) : List String :=
  reasonWhen (decide (lease.state ≠ .active))
      ("lease.not_active:" ++ lease.state.text) ++
    reasonWhen (decide (nowWall < lease.notBefore)) "lease.not_yet_valid" ++
    reasonWhen (decide (lease.expiresAt ≤ nowWall)) "lease.expired" ++
    reasonWhen
      (match lease.remainingUses with
        | some n => decide (n ≤ 0)
        | none => false)
      "lease.exhausted"

def scopeReasons
    (request : ActionRequest) (lease : CapabilityLease) : List String :=
  reasonWhen (decide (request.subject ≠ lease.subject))
      "scope.subject_mismatch" ++
    reasonWhen (decide (request.actionType ∉ lease.actionScope))
      "scope.action_mismatch" ++
    reasonWhen (decide (request.objectId ∉ lease.objectScope))
      "scope.object_mismatch" ++
    reasonWhen
      (!lease.purposeScope.isEmpty &&
        decide (request.purpose ∉ lease.purposeScope))
      "scope.purpose_mismatch"

def limitReasons
    (host : Host) (policy : CanonicalPolicy) (request : ActionRequest) :
    List String :=
  policy.numericLimits.flatMap fun limit =>
    let res := limit.check host request.parameters
    if res.ok then [] else res.reasons

def conditionReasons
    (host : Host) (policy : CanonicalPolicy) (facts : Snapshot)
    (nowWall : String) : Except PyError (List String × Bool) :=
  match policy.condition with
  | none => .ok ([], false)
  | some condition =>
      match condition.evaluate host ⟨facts, nowWall⟩ with
      | .error e => .error e
      | .ok res =>
          if res.ok then .ok ([], false)
          else if policy.unknownFactPolicy = "ASK" ∧
              res.reasons.all (startsWith · "policy.unknown_fact") = true ∧
              res.reasons ≠ [] then
            .ok (["policy.unknown_fact_ask"], true)
          else .ok (res.reasons, false)

def requiredFactReasons
    (policy : CanonicalPolicy) (facts : Snapshot) : List String :=
  policy.requiredFacts.flatMap fun name =>
    reasonWhen (!facts.contains name) ("policy.required_fact_missing:" ++ name)

/-- Every reason against a request under a lease whose policy is known. -/
def collectReasons
    (host : Host) (request : ActionRequest) (lease : CapabilityLease)
    (policy : CanonicalPolicy) (facts : Snapshot) (nowWall : String)
    (fromCondition : List String) : List String :=
  standingReasons lease nowWall ++ scopeReasons request lease ++
    limitReasons host policy request ++ fromCondition ++
    requiredFactReasons policy facts

/-- The outcome and the reasons that `evaluate` puts into its decision. -/
def verdict
    (host : Host) (request : ActionRequest) (lease : Option CapabilityLease)
    (policy : Option CanonicalPolicy) (facts : Snapshot) (nowWall : String)
    (nowMonotonic : ℚ) (seenRequestIds : List String) :
    Except PyError (Outcome × List String) :=
  if request.requestId ∈ seenRequestIds then
    .ok (.deny, ["replay.duplicate_request"])
  else
    match lease, policy with
    | some lease, some policy =>
        if nowMonotonic < lease.issuedAtMonotonicAnchor then
          .ok (.error, ["clock.monotonic_regression"])
        else if lease.policyHash ≠ policy.canonicalPolicyHash host then
          .ok (.error, ["lease.policy_hash_mismatch"])
        else
          match conditionReasons host policy facts nowWall with
          | .error e => .error e
          | .ok (fromCondition, unknownAsk) =>
              let reasons := collectReasons host request lease policy facts
                nowWall fromCondition
              if reasons = [] then .ok (.allow, reasons)
              else if unknownAsk ∧ reasons.length = 1 then .ok (.ask, reasons)
              else .ok (.deny, reasons)
    | _, _ => .ok (.deny, ["lease.none_matching"])

/-! ## What an allowance rests on -/

theorem reasonWhen_eq_nil_iff {fails : Bool} {reason : String} :
    reasonWhen fails reason = [] ↔ fails = false := by
  cases fails <;> simp [reasonWhen]

/-- Everything that `evaluate` has checked when it allows a request under a lease. -/
structure Admits
    (host : Host) (request : ActionRequest) (lease : CapabilityLease)
    (policy : CanonicalPolicy) (facts : Snapshot) (nowWall : String)
    (nowMonotonic : ℚ) (seenRequestIds : List String) : Prop where
  unseen : request.requestId ∉ seenRequestIds
  anchored : lease.issuedAtMonotonicAnchor ≤ nowMonotonic
  hash : lease.policyHash = policy.canonicalPolicyHash host
  active : lease.state = .active
  started : lease.notBefore ≤ nowWall
  unexpired : nowWall < lease.expiresAt
  uses : ∀ n, lease.remainingUses = some n → 0 < n
  subject : request.subject = lease.subject
  action : request.actionType ∈ lease.actionScope
  object : request.objectId ∈ lease.objectScope
  purpose : lease.purposeScope = [] ∨ request.purpose ∈ lease.purposeScope
  limits : limitReasons host policy request = []
  condition : conditionReasons host policy facts nowWall = .ok ([], false)
  required : requiredFactReasons policy facts = []

variable {request : ActionRequest} {nowWall : String} {seenRequestIds : List String}
  {lease : CapabilityLease} {facts : Snapshot} {reasons : List String} {nowMonotonic : ℚ}
  {host : Host}

theorem standingReasons_eq_nil_iff :
    standingReasons lease nowWall = [] ↔
      lease.state = .active ∧ lease.notBefore ≤ nowWall ∧
        nowWall < lease.expiresAt ∧ ∀ n, lease.remainingUses = some n → 0 < n := by
  have huses : (match lease.remainingUses with
        | some n => decide (n ≤ 0)
        | none => false) = false ↔ ∀ n, lease.remainingUses = some n → 0 < n := by
    cases lease.remainingUses <;> simp
  simp only [standingReasons, List.append_eq_nil_iff, reasonWhen_eq_nil_iff, huses,
    decide_eq_false_iff_not, ne_eq, not_not, String.not_lt, String.not_le, and_assoc]

theorem scopeReasons_eq_nil_iff :
    scopeReasons request lease = [] ↔
      request.subject = lease.subject ∧ request.actionType ∈ lease.actionScope ∧
        request.objectId ∈ lease.objectScope ∧
          (lease.purposeScope = [] ∨ request.purpose ∈ lease.purposeScope) := by
  simp only [scopeReasons, List.append_eq_nil_iff, reasonWhen_eq_nil_iff,
    decide_eq_false_iff_not, ne_eq, not_not, Bool.and_eq_false_iff,
    Bool.not_eq_false', List.isEmpty_iff, and_assoc]

theorem not_asks_of_no_reason {policy : CanonicalPolicy}
    {unknownAsk : Bool}
    (h : conditionReasons host policy facts nowWall = .ok ([], unknownAsk)) :
    unknownAsk = false := by
  unfold conditionReasons at h
  split at h
  · cases h
    rfl
  · split at h
    · cases h
    · split_ifs at h
      · cases h
        rfl
      · cases h
      · rw [Except.ok.injEq, Prod.mk.injEq] at h
        exact h.2.symm

/-- `evaluate` allows a request exactly when every one of its checks passes, and
then gives no reason. -/
theorem verdict_allow_iff
    {policy : CanonicalPolicy} :
    verdict host request (some lease) (some policy) facts nowWall nowMonotonic
        seenRequestIds = .ok (.allow, reasons) ↔
      Admits host request lease policy facts nowWall nowMonotonic
        seenRequestIds ∧ reasons = [] := by
  constructor
  · intro hallow
    unfold verdict at hallow
    split at hallow
    · cases hallow
    next hseen =>
      dsimp only at hallow
      split at hallow
      · cases hallow
      next hclock =>
        split at hallow
        · cases hallow
        next hhash =>
          split at hallow
          · cases hallow
          next fromCondition unknownAsk hcondition =>
            split at hallow
            next hreasons =>
              rw [Except.ok.injEq, Prod.mk.injEq] at hallow
              refine ⟨?_, hallow.2.symm.trans hreasons⟩
              simp only [collectReasons, List.append_eq_nil_iff,
                standingReasons_eq_nil_iff, scopeReasons_eq_nil_iff] at hreasons
              obtain ⟨⟨⟨⟨⟨hactive, hstarted, hunexpired, huses⟩, hsubject, haction,
                hobject, hpurpose⟩, hlimits⟩, rfl⟩, hrequired⟩ := hreasons
              obtain rfl := not_asks_of_no_reason hcondition
              exact ⟨hseen, not_lt.mp hclock, not_not.mp hhash, hactive, hstarted,
                hunexpired, huses, hsubject, haction, hobject, hpurpose, hlimits,
                hcondition, hrequired⟩
            · split at hallow <;> cases hallow
  · rintro ⟨h, rfl⟩
    have hreasons : collectReasons host request lease policy facts nowWall [] = [] := by
      simp only [collectReasons, List.append_eq_nil_iff, standingReasons_eq_nil_iff,
        scopeReasons_eq_nil_iff]
      exact ⟨⟨⟨⟨⟨h.active, h.started, h.unexpired, h.uses⟩, h.subject, h.action,
        h.object, h.purpose⟩, h.limits⟩, trivial⟩, h.required⟩
    simp only [verdict, if_neg h.unseen, if_neg (not_lt.mpr h.anchored), h.hash,
      ne_eq, not_true_eq_false, if_false, h.condition, hreasons, if_true]

theorem exists_of_verdict_allow {lease : Option CapabilityLease}
    {policy : Option CanonicalPolicy}
    (hallow : verdict host request lease policy facts nowWall nowMonotonic
      seenRequestIds = .ok (.allow, reasons)) :
    ∃ l p, lease = some l ∧ policy = some p ∧
      Admits host request l p facts nowWall nowMonotonic seenRequestIds ∧
        reasons = [] := by
  cases lease with
  | none =>
      unfold verdict at hallow
      split at hallow <;> cases hallow
  | some l =>
      cases policy with
      | none =>
          unfold verdict at hallow
          split at hallow <;> cases hallow
      | some p => exact ⟨l, p, rfl, rfl, verdict_allow_iff.mp hallow⟩

theorem verdict_allow {lease : Option CapabilityLease}
    {policy : Option CanonicalPolicy}
    (hallow : verdict host request lease policy facts nowWall nowMonotonic
      seenRequestIds = .ok (.allow, reasons)) :
    request.requestId ∉ seenRequestIds ∧
      ∃ l, lease = some l ∧ l.state = .active ∧
        ∀ n, l.remainingUses = some n → 0 < n := by
  obtain ⟨l, p, hl, -, hadmits, -⟩ := exists_of_verdict_allow hallow
  exact ⟨hadmits.unseen, l, hl, hadmits.active, hadmits.uses⟩

end Hydrogenuine.Lease
