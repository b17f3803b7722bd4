import Hydrogenuine.Lease.Authority

/-!
# Fact-driven invalidation

Embedding of `hg_lease/invalidation.py` and of `SituationStore.put`: a changed
fact suspends every standing lease that watches it, and the lease is resumed
when its condition is still satisfiable.
-/

namespace Hydrogenuine.Lease

open Support Hydrogenuine.Core

def CanonicalPolicy.watched (policy : CanonicalPolicy) : List String :=
  (match policy.condition with
    | some condition => condition.factNames
    | none => []) ++ policy.requiredFacts

/-- The reading that `on_fact_changed` makes of a condition's result: only the
reasons that are not about time windows count. -/
def CondResult.healthy (res : CondResult) : Bool :=
  res.ok ||
    (res.reasons.filter fun reason =>
      !startsWith reason "policy.outside_time_window").isEmpty

/-- The verdict of `on_fact_changed` on a standing lease. -/
def standing
    (host : Host) (policy : CanonicalPolicy) (facts : Snapshot)
    (nowWall : String) : Except PyError Bool :=
  if policy.requiredFacts.all facts.contains then
    match policy.condition with
    | none => .ok true
    | some condition =>
        match condition.evaluate host ⟨facts, nowWall⟩ with
        | .error e => .error e
        | .ok res => .ok res.healthy
  else .ok false

def dueObligations
    (lease : CapabilityLease) (policy : CanonicalPolicy) (fact : SituationFact)
    (nowWall : String) : List ObligationDue :=
  (policy.closeObligations.filter fun obligation =>
    let trigger := (PyVal.item? obligation "trigger_fact").getD .none
    let expected := (PyVal.item? obligation "trigger_value").getD .none
    trigger.pyEq (.str fact.name) &&
      (expected.pyEq .none || fact.typedValue.pyEq expected)).map
    fun obligation => ⟨lease.leaseId, obligation, fact.name, nowWall⟩

variable (env : LeaseEnv)

def checkObligations
    (lease : CapabilityLease) (policy : CanonicalPolicy) (fact : SituationFact)
    (nowWall : String) : LeaseM PUnit :=
  if env.obligationSink then
    modify fun s =>
      { s with
        obligations := s.obligations ++
          dueObligations lease policy fact nowWall }
  else pure ⟨⟩

def suspendFirst (fact : SituationFact) (lease : CapabilityLease) :
    LeaseM PUnit :=
  if lease.state = .active then
    suspendLease env lease.leaseId ("invalidation.fact_changed:" ++ fact.name)
  else pure ⟨⟩

def resumeWhen (ok : Bool) (fact : SituationFact) (lease : CapabilityLease) :
    LeaseM PUnit :=
  if ok then
    resumeLease env lease.leaseId ("invalidation.fact_recovered:" ++ fact.name)
  else pure ⟨⟩

/-- The body of the loop of `on_fact_changed`. -/
def reviewLease
    (fact : SituationFact) (nowWall : String) (lease : CapabilityLease) :
    LeaseM PUnit := do
  if lease.state.isLive then
    let s ← get
    match s.policyFor lease with
    | none => return
    | some policy =>
        if fact.name ∈ policy.watched then
          suspendFirst env fact lease
          let s ← get
          let ok ← raising (standing env.host policy
            (snapshot s.situation nowWall) nowWall)
          resumeWhen env ok fact lease
          checkObligations env lease policy fact nowWall
        else checkObligations env lease policy fact nowWall
  else return

def onFactChanged (fact : SituationFact) : LeaseM PUnit := do
  let (nowWall, _) ← readClock env
  let s ← get
  s.leases.all.forM (reviewLease env fact nowWall)

/-- `SituationStore.put`, with the invalidator as its listener. -/
def putFact (fact : SituationFact) : LeaseM PUnit := do
  modify fun s => { s with situation := s.situation.set fact.name fact }
  if env.subscribed then onFactChanged env fact else pure ⟨⟩

end Hydrogenuine.Lease
