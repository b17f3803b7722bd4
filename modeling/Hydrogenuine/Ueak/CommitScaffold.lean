import Hydrogenuine.Governance.CapabilityRegistry
import Hydrogenuine.Runtime.Contract
import Hydrogenuine.Support.Stateful

/-!
# The commit scaffold

Embedding of `hg_ueak/policy.py`, `hg_ueak/types.py` and
`hg_ueak/commit_scaffold.py`: the kernel reads a capability and an effect class
off a decided action, with defaults of its own, and commits or denies the
execution.  It keeps what it has committed.
-/

namespace Hydrogenuine.Ueak

open Support Hydrogenuine.Core Governance
open Hydrogenuine.Runtime

/-! ## Policy -/

def permitRequiredEffectClasses : List String := ["external_write"]

def actionCapabilityDefaults : List (String × String × String) :=
  [("oea_stub_log", "cap.oea_stub_log", "audit_log"),
    ("memory_write_stub", "cap.memory_write_stub", "derived_store"),
    ("external_post", "cap.external_post", "external_write"),
    ("external_write_scaffold", "cap.external_write_scaffold",
      "external_write"),
    ("local_report_file_write", "local_report_file.write", "local_report")]

def effectRequiresPermit (effectClass : String) : Bool :=
  decide (effectClass ∈ permitRequiredEffectClasses)

def resolveCapabilityForAction
    (host : Host) (action : List (String × PyVal)) : String × String :=
  let capabilityId := host.strOr (PyVal.getItem action "capability_id") ""
  let effectClass := host.strOr (PyVal.getItem action "effect_class") ""
  if capabilityId ≠ "" ∧ effectClass ≠ "" then (capabilityId, effectClass)
  else
    let actionType := host.strOr (PyVal.getItem action "action_type") ""
    match actionCapabilityDefaults.lookup actionType with
    | none =>
        (orText (some capabilityId) "cap.unknown",
          orText (some effectClass) "unknown")
    | some defaults => defaults

namespace CommitScaffold

/-! ## Requests and results -/

structure ExecutionRequest where
  requestId : String
  proposedAction : List (String × PyVal)
  requiredCapability : String
  effectClass : String
  governanceTraceRefs : List String
  permitRef : PyVal
  decisionId : String
  decisionEventId : String

inductive ExecutionStatus where
  | committed
  | denied
deriving DecidableEq

structure ExecutionResult where
  status : ExecutionStatus
  reasonCode : String
  requestId : String
  commitRef : Option String
  capabilityId : String
  effectClass : String

/-- The texts that `tuple(str(ref) for ref in trace_refs)` collects. -/
def traceRefTexts (host : Host) : Option PyVal → Except PyError (List String)
  | none => .ok []
  | some (.str text) => .ok [text]
  | some (.list items) => .ok (items.map host.str)
  | some (.dict items) => .ok (items.map Prod.fst)
  | some _ => .error (.typeError "governance_trace_refs is not iterable")

def requestFromDecision
    (host : Host) (decision : Event) : Except PyError ExecutionRequest := do
  let action ← copyItems decision.payload "action"
  let (capabilityId, effectClass) := resolveCapabilityForAction host action
  let traceRefs ←
    traceRefTexts host (PyVal.item? action "governance_trace_refs")
  return {
    requestId := host.stableId "exec_req" [decision.eventId]
    proposedAction := action
    requiredCapability := capabilityId
    effectClass := effectClass
    governanceTraceRefs := traceRefs
    permitRef := PyVal.getItem action "permit_ref"
    decisionId := host.str
      ((PyVal.item? decision.payload "decision_id").getD (.str ""))
    decisionEventId := decision.eventId }

/-- `CommitScaffold.evaluate`: why a request is denied, if it is. -/
def denyReason (request : ExecutionRequest) : Option String :=
  match lookupCapability request.requiredCapability with
  | none => some "unknown_capability"
  | some capability =>
      if capability.effectClass ≠ request.effectClass then
        some "effect_class_mismatch"
      else if !capability.bindAllowed then some "capability_denied"
      else if effectRequiresPermit request.effectClass &&
          !request.permitRef.truthy then
        some "missing_permit"
      else none

def deniedResult
    (request : ExecutionRequest) (reasonCode : String) : ExecutionResult where
  status := .denied
  reasonCode := reasonCode
  requestId := request.requestId
  commitRef := none
  capabilityId := request.requiredCapability
  effectClass := request.effectClass

def evaluate (host : Host) (request : ExecutionRequest) : ExecutionResult :=
  match denyReason request with
  | some reasonCode => deniedResult request reasonCode
  | none =>
      { status := .committed
        reasonCode := "committed_internal"
        requestId := request.requestId
        commitRef := some (host.stableId "ueak_commit" [request.requestId])
        capabilityId := request.requiredCapability
        effectClass := request.effectClass }

/-! ## Drafts -/

def commitDraft
    (request : ExecutionRequest) (result : ExecutionResult)
    (decisionEventId : String) : Draft where
  type := "UEAK_EXECUTION_COMMITTED"
  payload :=
    [("request_id", .str request.requestId),
      ("commit_ref", .ofOption result.commitRef),
      ("decision_id", .str request.decisionId),
      ("decision_event_id", .str decisionEventId),
      ("capability_id", .str request.requiredCapability),
      ("effect_class", .str request.effectClass),
      ("permit_ref", request.permitRef),
      ("governance_trace_refs", .ofStrings request.governanceTraceRefs),
      ("action", .dict request.proposedAction),
      ("reason_code", .str result.reasonCode)]
  causalParents := [decisionEventId]

def denyDraft
    (request : ExecutionRequest) (result : ExecutionResult)
    (decisionEventId : String) : Draft where
  type := "UEAK_EXECUTION_DENIED"
  payload :=
    [("request_id", .str request.requestId),
      ("decision_id", .str request.decisionId),
      ("decision_event_id", .str decisionEventId),
      ("capability_id", .str request.requiredCapability),
      ("effect_class", .str request.effectClass),
      ("permit_ref", request.permitRef),
      ("reason_code", .str result.reasonCode)]
  causalParents := [decisionEventId]

end CommitScaffold

/-- The state of a commit scaffold. -/
structure CommitScaffold where
  blocked : Bool
  committedRequests : List CommitScaffold.ExecutionRequest
  deniedRequests : List CommitScaffold.ExecutionResult

namespace CommitScaffold

abbrev KernelM (α : Type) := EStateM PyError CommitScaffold α

def recordDenied (result : ExecutionResult) : KernelM PUnit :=
  modify fun s => { s with deniedRequests := s.deniedRequests ++ [result] }

def recordCommitted (request : ExecutionRequest) : KernelM PUnit :=
  modify fun s => { s with
    committedRequests := s.committedRequests ++ [request] }

/-- The loop body of `CommitScaffold.execute` for one decision event. -/
def executeDecision (host : Host) (decision : Event) : KernelM Draft := do
  let request ← raising (requestFromDecision host decision)
  let s ← get
  if s.blocked then
    let result := deniedResult request "panic_blocked"
    recordDenied result
    return denyDraft request result decision.eventId
  else
    let result := evaluate host request
    match result.status with
    | .committed =>
        recordCommitted request
        return commitDraft request result decision.eventId
    | .denied =>
        recordDenied result
        return denyDraft request result decision.eventId

def execute (host : Host) : List Event → KernelM (List Draft)
  | [] => return []
  | decision :: decisions => do
      if decision.type ≠ "DECISION_EVENT" then execute host decisions
      else
        let first ← executeDecision host decision
        let rest ← execute host decisions
        return first :: rest

/-! ## What is committed -/

/-- A request is committed when nothing speaks against it and the kernel is not
blocked. -/
def commitsTo (s : CommitScaffold) (request : ExecutionRequest) :
    List ExecutionRequest :=
  if s.blocked = false ∧ denyReason request = none then [request] else []

theorem executeDecision_ends
    {host : Host} {decision : Event} {request : ExecutionRequest}
    (hrequest : requestFromDecision host decision = .ok request)
    (s : CommitScaffold) :
    Ends (executeDecision host decision) s
      (fun _ t => t.blocked = s.blocked ∧ t.committedRequests =
        s.committedRequests ++ s.commitsTo request)
      (fun _ _ => False) := by
  unfold executeDecision
  rw [hrequest]
  apply ends_bind
  apply ends_pure
  apply ends_bind
  apply ends_get
  dsimp only
  split_ifs with hblocked
  · apply ends_bind
    apply ends_modify
    refine ends_pure ⟨rfl, ?_⟩
    simp [commitsTo, hblocked]
  · unfold evaluate
    cases hreason : denyReason request with
    | some reasonCode =>
        apply ends_bind
        apply ends_modify
        refine ends_pure ⟨rfl, ?_⟩
        simp [commitsTo, hreason]
    | none =>
        apply ends_bind
        apply ends_modify
        refine ends_pure ⟨rfl, ?_⟩
        simp [commitsTo, hblocked, hreason]

def commitsOf (host : Host) (s : CommitScaffold) (decision : Event) :
    List ExecutionRequest :=
  match requestFromDecision host decision with
  | .ok request => s.commitsTo request
  | .error _ => []

theorem commitsOf_congr
    {host : Host} {s t : CommitScaffold} (h : t.blocked = s.blocked) :
    commitsOf host t = commitsOf host s := by
  funext decision
  unfold commitsOf commitsTo
  rw [h]

theorem execute_ends
    {host : Host} {decisions : List Event}
    (h : ∀ decision ∈ decisions, decision.type = "DECISION_EVENT" ∧
      ∃ request, requestFromDecision host decision = .ok request)
    (s : CommitScaffold) :
    Ends (execute host decisions) s
      (fun _ t => t.blocked = s.blocked ∧ t.committedRequests =
        s.committedRequests ++ decisions.flatMap (commitsOf host s))
      (fun _ _ => False) := by
  induction decisions generalizing s with
  | nil =>
      unfold execute
      exact ends_pure ⟨rfl, by simp⟩
  | cons decision decisions ih =>
      obtain ⟨htype, request, hrequest⟩ := h decision List.mem_cons_self
      unfold execute
      rw [if_neg (not_not.mpr htype)]
      apply ends_bind
      refine ends_mono (executeDecision_ends hrequest s) ?_ (fun _ _ h => h)
      rintro _ t ⟨hblocked, hcommitted⟩
      apply ends_bind
      refine ends_mono
        (ih (fun d hd => h d (List.mem_cons_of_mem _ hd)) t) ?_
        (fun _ _ h => h)
      rintro _ u ⟨hblocked', hcommitted'⟩
      refine ends_pure ⟨hblocked'.trans hblocked, ?_⟩
      have hfirst : commitsOf host s decision = s.commitsTo request := by
        unfold commitsOf
        rw [hrequest]
      rw [hcommitted', hcommitted, commitsOf_congr hblocked,
        List.flatMap_cons, hfirst, List.append_assoc]

end CommitScaffold

end Hydrogenuine.Ueak
