import Hydrogenuine.Lease.Authority

/-!
# Delegation

Embedding of `hg_lease/delegation.py`: a child lease is derived from the parent
record that the caller presents, and the children of a lease can be revoked
together.  The parent record is read and never written.
-/

namespace Hydrogenuine.Lease

open Support Hydrogenuine.Core

/-- The keyword arguments of `delegate_lease`. -/
structure DelegationArgs where
  parentIssuerRole : String
  delegateSubject : String
  nowWall : String
  nowMonotonic : ℚ
  actionScope : Option (List String)
  objectScope : Option (List String)
  purposeScope : Option (List String)
  expiresAt : Option String
  remainingUses : Option ℤ

def mayDelegate : List String := ["OWNER", "HOUSEHOLD_MEMBER"]

/-- `scope or parent_scope`. -/
def orScope : Option (List String) → List String → List String
  | some (item :: items), _ => item :: items
  | _, scope => scope

def subset
    (host : Host) (child parent : List String) (label : String) :
    Except PyError (List String) :=
  let extra := (child.filter fun item => item ∉ parent).dedup
  if extra ≠ [] then
    .error (.delegation ("delegation.scope_amplification:" ++ label ++ ":" ++
      host.str (.ofStrings (sortTexts extra))))
  else if child = [] then
    .error (.delegation ("delegation.empty_scope:" ++ label))
  else .ok child

/-- The refusals of `delegate_lease` before a child is drafted. -/
def delegationRefusal
    (parent : CapabilityLease) (args : DelegationArgs) : Option String :=
  let childExpiry := orText args.expiresAt parent.expiresAt
  if args.parentIssuerRole ∉ mayDelegate then
    some ("delegation.role_may_not_delegate:" ++ args.parentIssuerRole)
  else if parent.state ≠ .active then
    some ("delegation.parent_not_active:" ++ parent.state.text)
  else if parent.parentLeaseId ≠ none then some "delegation.no_redelegation"
  else if parent.expiresAt < childExpiry then
    some "delegation.duration_amplification"
  else if childExpiry ≤ args.nowWall then some "delegation.already_expired"
  else
    match parent.remainingUses, args.remainingUses with
    | none, _ => none
    | some _, none => some "delegation.use_amplification"
    | some have_, some asked =>
        if have_ < asked then some "delegation.use_amplification" else none

/-- The record that `delegate_lease` drafts from its parent. -/
def draftChild
    (parent : CapabilityLease) (args : DelegationArgs)
    (actions objects purposes : List String) (leaseId handle : String) :
    CapabilityLease where
  leaseId := leaseId
  policyId := parent.policyId
  policyHash := parent.policyHash
  issuer := parent.issuer
  subject := args.delegateSubject
  actionScope := actions
  objectScope := objects
  purposeScope := purposes
  issuedAtWall := args.nowWall
  issuedAtMonotonicAnchor := args.nowMonotonic
  notBefore := if parent.notBefore < args.nowWall then args.nowWall
    else parent.notBefore
  expiresAt := orText args.expiresAt parent.expiresAt
  riskClass := parent.riskClass
  state := .draft
  remainingUses := args.remainingUses
  parentLeaseId := some parent.leaseId
  supersedesLeaseId := none
  revocationHandle := "rvk_" ++ handle
  provenanceRefs := parent.provenanceRefs ++
    ["delegated_from:" ++ parent.leaseId]
  appliedEventIds := []

variable (env : LeaseEnv)

def delegateLease
    (parent : CapabilityLease) (args : DelegationArgs) :
    LeaseM CapabilityLease := do
  match delegationRefusal parent args with
  | some message => throw (.delegation message)
  | none =>
      let digits ← drawUuid env
      let actions ← raising (subset env.host
        (orScope args.actionScope parent.actionScope) parent.actionScope
        "actions")
      let objects ← raising (subset env.host
        (orScope args.objectScope parent.objectScope) parent.objectScope
        "objects")
      let purposes ← raising (subset env.host
        (orScope args.purposeScope parent.purposeScope) parent.purposeScope
        "purpose")
      let handle ← drawUuid env
      let draft := draftChild parent args actions objects purposes
        (leaseIdOf digits) handle
      let (child, first, second) ← raising (openLease draft
        "delegation.submitted" "delegation.derived_from_parent" args.nowWall
        ("parent=" ++ parent.leaseId))
      putLease child first
      putLease child second
      return child

/-- The live children of a lease, as `revoke_delegations_of` meets them. -/
def liveChildren (store : LeaseStore) (parentLeaseId : String) :
    List CapabilityLease :=
  store.all.filter fun lease =>
    decide (lease.parentLeaseId = some parentLeaseId) && lease.state.isLive

def revokeDelegationsOf (parentLeaseId nowWall : String) :
    LeaseM (List String) := do
  let s ← get
  let children := liveChildren s.leases parentLeaseId
  children.forM fun lease => do
    let digits ← drawUuid env
    let (updated, event) ← raising (applyTransition lease .revoke
      (eventIdOf lease.leaseId "cascade" digits) "delegation.parent_revoked"
      nowWall "")
    putLease updated event
  return children.map CapabilityLease.leaseId

end Hydrogenuine.Lease
