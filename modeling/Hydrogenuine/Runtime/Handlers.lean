import Hydrogenuine.Governance.PermitBinder
import Hydrogenuine.Hal.Arbitration
import Hydrogenuine.Ueak.CommitScaffold

/-!
# The decision and kernel handlers

Embedding of `hg_runtime/handlers/hal_decision.py`,
`hg_runtime/handlers/decision_phase1.py` and of the decision and kernel stubs of
`hg_runtime/handlers/stubs.py`.  The deliberation (SOAR) that may run before
arbitration and the effectors (OEA) behind the kernel are parameters; neither
sees the permit binder or the commit scaffold.
-/

namespace Hydrogenuine.Runtime

open Support Hydrogenuine.Core Governance
open Hal Ueak

/-- What the handlers are configured with. -/
structure HandlerEnv where
  host : Host
  halEnabled : Bool
  binder : Option PermitBinder
  /-- `run_soar`, when the deliberation is enabled. -/
  soar : Option (Event → List String → Except PyError SoarRun)
  /-- `OEAStub.dispatch_committed`. -/
  dispatchCommitted : List Event → Except PyError (List Draft)

variable (env : HandlerEnv)

/-! ## The stub and the permit-binding decision handlers -/

/-- `payload.get("kind") != "candidate_action"` does not hold. -/
def isCandidateAction (proposal : Event) : Bool :=
  (PyVal.getItem proposal.payload "kind").pyEq (.str "candidate_action")

/-- `d[k]`. -/
def requireItem
    (items : List (String × PyVal)) (k : String) : Except PyError PyVal :=
  match PyVal.item? items k with
  | some v => .ok v
  | none => .error (.keyError k)

def notCandidateDraft (proposal : Event) : Draft where
  type := "DECISION_BLOCKED"
  payload :=
    [("proposal_id", PyVal.getItem proposal.payload "proposal_id"),
      ("reason", .str "not_candidate_action")]
  causalParents := [proposal.eventId]

/-- One round of `StubDecisionHandler.evaluate`. -/
def stubDecision (proposal : Event) : Except PyError Draft := do
  if isCandidateAction proposal then
    let proposalId ← requireItem proposal.payload "proposal_id"
    let content ← requireItem proposal.payload "content"
    return {
      type := "DECISION_EVENT"
      payload :=
        [("decision_id", .str (env.host.stableId "dec" [proposal.eventId])),
          ("proposal_id", proposalId),
          ("verdict", .str "allow_stub"),
          ("authority_ref", .str "phase0-stub"),
          ("action", content)]
      causalParents := [proposal.eventId] }
  else return notCandidateDraft proposal

def traceText (ref : TraceRef) : String :=
  ref.tracePath ++ "#" ++ toString ref.traceSeq ++ ":" ++ ref.traceEventHash

/-- One round of `Phase1DecisionHandler.evaluate` with a binder. -/
def bindDecision (binder : PermitBinder) (item : Draft) : BinderM (List Draft) := do
  if item.type ≠ "DECISION_EVENT" then return [item]
  else
    let action ← raising (copyItems item.payload "action")
    let (capabilityId, effectClass) := arbitratedPair env.host action
    let decisionId :=
      env.host.str ((PyVal.item? item.payload "decision_id").getD (.str ""))
    let descriptor ← raising (descriptorFor capabilityId)
    let result ← binder.bind env.host
      ⟨decisionId, capabilityId, effectClass, "dec_allow_stub"⟩ descriptor none
      "gpp-bind" "gpp-phase1"
    let drafts := bindResultToDrafts env.host result
    match result.permit with
    | none => return drafts ++ [item]
    | some permit =>
        let action := PyVal.setItem action "permit_ref" (.str permit.permitId)
        let action := PyVal.setItem action "governance_trace_refs"
          (.ofStrings [traceText permit.traceRef])
        let payload := PyVal.setItem item.payload "action" (.dict action)
        let payload := PyVal.setItem payload "authority_ref"
          (.str "gpp-phase1-scaffold")
        return drafts ++ [⟨"DECISION_EVENT", payload, item.causalParents, none⟩]

def collect {α : Type} (body : α → BinderM (List Draft)) :
    List α → BinderM (List Draft)
  | [] => return []
  | item :: items => do
      let first ← body item
      let rest ← collect body items
      return first ++ rest

/-- `Phase1DecisionHandler.evaluate`. -/
def phase1Evaluate (proposals : List Event) : BinderM (List Draft) := do
  let base ← raising (proposals.mapM (stubDecision env))
  match env.binder with
  | none => return base
  | some binder => collect (bindDecision env binder) base

/-! ## The arbitrating decision handler -/

def aepModulationRefs
    (host : Host) (view : List (String × PyVal)) : List String :=
  match PyVal.item? view "activity" with
  | some (.dict activity) =>
      match PyVal.item? activity "recent_aep_signals" with
      | some (.list recent) =>
          (recent.drop (recent.length - 8)).filterMap fun row =>
            match row with
            | .dict items =>
                if (PyVal.getItem items "event_id").truthy then
                  some (host.str (PyVal.getItem items "event_id"))
                else none
            | _ => none
      | _ => []
  | _ => []

def soarRunDrafts (run : SoarRun) (causalParents : List String) : List Draft :=
  (run.domainEvaluations.map fun payload =>
    { type := "SOAR_DOMAIN_EVALUATED"
      payload := payload ++ [("enforcement", .str "soar_phase1_evaluate_only")]
      causalParents := causalParents }) ++
  [{ type := "SOAR_D7_DECISION_RECORDED"
     payload := run.d7Decision ++
      [("enforcement", .str "soar_phase1_d7_primary")]
     causalParents := causalParents },
    { type := "SOAR_D7_CRITIQUE_RECORDED"
      payload := run.d7Critique ++
        [("binding_after_critique", .str run.binding.text),
          ("enforcement", .str "soar_phase1_d7_critique_weaken_only")]
      causalParents := causalParents }]

/-- What one tick hands to the handlers beside the proposals. -/
structure Tick where
  events : List Event
  view : List (String × PyVal)
  aepState : List (String × PyVal)

variable (tick : Tick)

def Tick.contextRefs : List String := tick.events.map Event.eventId

def deliberate (proposal : Event) : Except PyError (Option SoarRun) :=
  match env.soar with
  | none => .ok none
  | some run => (run proposal tick.contextRefs).map some

def halRequest
    (proposal : Event) (soarRun : Option SoarRun) :
    Except PyError ArbitrationRequest :=
  requestFromProposal env.host proposal tick.contextRefs tick.aepState
    (aepModulationRefs env.host tick.view) soarRun

def notRoutedDraft (proposal : Event) (result : ArbitrationResult) : Draft where
  type := "DECISION_BLOCKED"
  payload :=
    [("proposal_id", PyVal.getItem proposal.payload "proposal_id"),
      ("reason", .str result.reasonCode),
      ("hal_arbitration_ref", .str result.requestId),
      ("routing", .str result.routing.text)]
  causalParents := [proposal.eventId]

def decidedAction
    (content : List (String × PyVal)) (result : ArbitrationResult)
    (soarRun : Option SoarRun) : List (String × PyVal) :=
  let action :=
    PyVal.setItem content "hal_arbitration_ref" (.str result.requestId)
  let action :=
    match soarRun with
    | none => action
    | some run =>
        PyVal.setItem (PyVal.setItem action "soar_run_ref" (.str run.requestId))
          "soar_binding" (.str run.binding.text)
  PyVal.setItem action "governance_trace_refs" (.ofStrings result.traceRefs)

/-- The request that `_gpp_drafts` hands to the binder. -/
def bindRequestFor
    (proposal : Event) (action : List (String × PyVal))
    (result : ArbitrationResult) : BindRequest where
  requestId := env.host.stableId "dec" [proposal.eventId]
  capabilityId := (arbitratedPair env.host action).1
  effectClass := (arbitratedPair env.host action).2
  decisionRef := decisionRefForResult result

def permittedAction
    (action : List (String × PyVal)) (permit : Permit)
    (result : ArbitrationResult) : List (String × PyVal) :=
  PyVal.setItem (PyVal.setItem action "permit_ref" (.str permit.permitId))
    "governance_trace_refs" (.ofStrings (result.traceRefs ++
      [traceText permit.traceRef, "hal:arbitration:" ++ result.requestId]))

/-- `Phase1HALDecisionHandler._gpp_drafts`: the drafts, and the action as it is
left. -/
def gppDrafts
    (proposal : Event) (action : List (String × PyVal))
    (result : ArbitrationResult) :
    BinderM (List Draft × List (String × PyVal)) := do
  match env.binder with
  | none => return ([], action)
  | some binder =>
      let request := bindRequestFor env proposal action result
      let descriptor ← raising (descriptorFor request.capabilityId)
      let bound ← binder.bind env.host request descriptor none "gpp-bind"
        "gpp-phase1"
      let drafts := bindResultToDrafts env.host bound
      match bound.permit with
      | none => return (drafts, action)
      | some permit => return (drafts, permittedAction action permit result)

def decisionDraft
    (proposal : Event) (proposalId : PyVal) (result : ArbitrationResult)
    (soarRun : Option SoarRun) (action : List (String × PyVal)) : Draft where
  type := "DECISION_EVENT"
  payload :=
    [("decision_id", .str (env.host.stableId "dec" [proposal.eventId])),
      ("proposal_id", proposalId),
      ("verdict", .str "allow_hal_scaffold"),
      ("authority_ref", .str "hal-phase1-scaffold"),
      ("hal_arbitration_ref", .str result.requestId),
      ("hal_routing", .str result.routing.text),
      ("soar_run_ref", .ofOption (soarRun.map SoarRun.requestId)),
      ("soar_binding", .ofOption (soarRun.map fun run => run.binding.text)),
      ("action", .dict action)]
  causalParents := [proposal.eventId]

def acceptProposal
    (proposal : Event) (result : ArbitrationResult)
    (soarRun : Option SoarRun) : BinderM (List Draft) := do
  let content ← raising (copyItems proposal.payload "content")
  let (drafts, action) ←
    gppDrafts env proposal (decidedAction content result soarRun) result
  let proposalId ← raising (requireItem proposal.payload "proposal_id")
  return drafts ++ [decisionDraft env proposal proposalId result soarRun action]

/-- One round of `Phase1HALDecisionHandler.evaluate`. -/
def evaluateProposal (proposal : Event) : BinderM (List Draft) := do
  if !isCandidateAction proposal then return [notCandidateDraft proposal]
  else
    let soarRun ← raising (deliberate env tick proposal)
    let soarDrafts := soarRun.toList.flatMap fun run =>
      soarRunDrafts run [proposal.eventId]
    let request ← raising (halRequest env tick proposal soarRun)
    let result := arbitrate request
    -- A draft has no event id yet, so the recorded arbitration points at the
    -- proposal as well.
    let drafts := soarDrafts ++
      [arbitrationRequestedDraft request [proposal.eventId],
        arbitrationRecordedDraft env.host result [proposal.eventId]]
    match result.routing with
    | .noOp => return drafts
    | .reject => return drafts ++ [notRoutedDraft proposal result]
    | .defer => return drafts ++ [notRoutedDraft proposal result]
    | .accept =>
        let decided ← acceptProposal env proposal result soarRun
        return drafts ++ decided

def evaluate (proposals : List Event) : BinderM (List Draft) :=
  if !env.halEnabled then phase1Evaluate env proposals
  else collect (evaluateProposal env tick) proposals

/-! ## The kernel handler -/

/-- `StubKernelHandler.execute`: the scaffold commits or denies, and the
effectors see what it committed. -/
def kernelExecute (decisions : List Event) :
    CommitScaffold.KernelM (List Draft) := do
  let ueakDrafts ← CommitScaffold.execute env.host decisions
  let committed :=
    ueakDrafts.filter fun d => d.type == "UEAK_EXECUTION_COMMITTED"
  if committed.isEmpty then return ueakDrafts
  else
    let oeaDrafts ← raising (env.dispatchCommitted (committed.map fun d =>
      { eventId := env.host.stableId "evt"
          [env.host.str (PyVal.getItem d.payload "commit_ref")]
        type := "UEAK_EXECUTION_COMMITTED"
        payload := d.payload
        causalParents := []
        severity := none }))
    return ueakDrafts ++ oeaDrafts

end Hydrogenuine.Runtime
