import Hydrogenuine.Gpp.Verifier
import Hydrogenuine.Lease.Authority

/-!
# The external-action crossing

Embedding of `hg_lease/oea_crossing.py`.  `requestAction` is the funnel; its
second phase, which verifies and consumes the permit and calls the adapter, is
`dispatch`, so that other operations can come between the two.
-/

namespace Hydrogenuine.Lease

open Support Hydrogenuine.Core Gpp

inductive CrossingOutcome where
  | executed
  | refused
  | permitRejected
  | adapterFailed
deriving DecidableEq

def CrossingOutcome.text : CrossingOutcome → String
  | executed => "EXECUTED"
  | refused => "REFUSED"
  | permitRejected => "PERMIT_REJECTED"
  | adapterFailed => "ADAPTER_FAILED"

structure CrossingResult where
  outcome : CrossingOutcome
  decision : Decision
  reasonCodes : List String
  permitId : Option String
  restrictionResults : List String
  receiptId : String
  executionReceiptId : Option String
  adapterResult : Option PyVal

variable (env : LeaseEnv)

/-- `LeaseCrossing._append_execution_receipt`. -/
def executionReceipt
    (decision : Decision) (request : ActionRequest) (outcome : CrossingOutcome)
    (detail nowWall : String) (adapterResult : Option PyVal) : LeaseM Receipt :=
  fileReceipt env
    { decisionId := decision.decisionId
      outcome := outcome.text
      attemptedAt := request.requestedAt
      situationSnapshotHash := decision.situationSnapshotHash
      leaseHash := none
      policyHash := none
      adapterRequestHash := some (env.host.canonicalHash request.toPayload)
      adapterResultHash := adapterResult.map env.host.canonicalHash
      completedAt := some nowWall
      correctionOf := none
      detail := detail }

/-- `verify_permit` on the stored permit, then the single-use `consume`. -/
def verifyAndConsume
    (permitId actionType nowWall : String) : LeaseM (Bool × String) := do
  let s ← get
  match s.gpp.store.get permitId with
  | none => return (false, "gpp.denied.invalid_status")
  | some permit =>
      let verified := verifyPermit env.host s.gpp.store permit nowWall
        (some actionType) (some env.capabilityRef) (some env.effectClass)
      if verified.1 then
        let consumed := s.gpp.store.consume env.host permitId nowWall
          "lease_crossing" ""
        modify fun s => { s with gpp := { s.gpp with store := consumed.1 } }
        if consumed.2.ok then return (true, verified.2)
        else return (false, orText (some consumed.2.reason)
          "gpp.denied.consume_failed")
      else return verified

/-- The second phase of `request_action`. -/
def dispatch
    (authorized : AuthorizedAction) (request : ActionRequest) :
    LeaseM CrossingResult := do
  let decision := authorized.decision
  let result (outcome : CrossingOutcome) (reasonCodes : List String)
      (receipt : Option Receipt) (adapterResult : Option PyVal) :
      CrossingResult :=
    ⟨outcome, decision, reasonCodes, authorized.permitId,
      authorized.restrictionResults, authorized.receiptId,
      receipt.map receiptIdOf, adapterResult⟩
  match decision.outcome, authorized.permitId with
  | .allow, some permitId =>
      let (nowWall, _) ← readClock env
      let (ok, reason) ← verifyAndConsume env permitId request.actionType nowWall
      if ok then
        let s ← get
        match env.adapter request s.ticks with
        | none =>
            let receipt ← executionReceipt env decision request .adapterFailed
              "no adapter for device/action" nowWall none
            return result .adapterFailed
              (decision.reasonCodes ++ ["adapter.none_registered"])
              (some receipt) none
        | some answer =>
            let outcome : CrossingOutcome :=
              if answer.ok then .executed else .adapterFailed
            let receipt ← executionReceipt env decision request outcome ""
              nowWall (some answer.payload)
            return result outcome decision.reasonCodes (some receipt)
              (some answer.payload)
      else
        let receipt ← executionReceipt env decision request .permitRejected
          reason nowWall none
        return result .permitRejected (decision.reasonCodes ++ [reason])
          (some receipt) none
  | _, _ => return result .refused decision.reasonCodes none none

def requestAction (request : ActionRequest) : LeaseM CrossingResult := do
  let authorized ← authorize env request
  dispatch env authorized request

end Hydrogenuine.Lease
