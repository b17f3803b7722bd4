import Hydrogenuine.Lease.Allowance

/-!
# Hooks and prohibitions only restrict

Embedding of `resolve_conflict` of `hg_lease/delegation.py`, and the laws of
restriction: whatever hooks and prohibitions are added, a request that was not
allowed does not become allowed, and the order of the prohibitions decides at
most which of them is named.
-/

namespace Hydrogenuine.Lease

open Support Hydrogenuine.Core Gpp

/-- `_ROLE_RANK.get(role, 0)`. -/
def roleRank (role : String) : ℕ :=
  if role = "OWNER" then 3
  else if role = "HOUSEHOLD_MEMBER" then 2
  else if role = "GUEST" then 1
  else if role = "SERVICE" then 1
  else 0

structure Prohibition where
  issuerId : String
  issuerRole : String
  actionType : String
  objectId : String
  deviceLocal : Bool

/-- The body of the loop of `resolve_conflict`. -/
def Prohibition.defeats
    (leaseRank : ℕ) (actionType objectId : String) (p : Prohibition) :
    Option String :=
  if p.actionType ≠ actionType ∨ p.objectId ≠ objectId then none
  else if p.deviceLocal then some ("conflict.device_local_policy:" ++ p.issuerId)
  else if leaseRank ≤ roleRank p.issuerRole then
    some ("conflict.prohibited_by:" ++ p.issuerId)
  else none

def resolveConflict
    (leaseIssuerRole : String) (prohibitions : List Prohibition)
    (actionType objectId : String) : Option String :=
  prohibitions.findSome? (Prohibition.defeats (roleRank leaseIssuerRole) actionType
    objectId)

def conflictHook
    (issuerRole : CapabilityLease → String) (prohibitions : List Prohibition) :
    RestrictionHook := fun request lease _ =>
  .ok (resolveConflict (issuerRole lease) prohibitions request.actionType
    request.objectId)

def LeaseEnv.withHooks (env : LeaseEnv) (hooks : List RestrictionHook) : LeaseEnv :=
  { env with hooks := hooks }

/-! ## Conflicts -/

variable {leaseIssuerRole actionType objectId : String}

theorem resolveConflict_eq_none_iff
    {prohibitions : List Prohibition} :
    resolveConflict leaseIssuerRole prohibitions actionType objectId = none ↔
      ∀ p ∈ prohibitions,
        p.defeats (roleRank leaseIssuerRole) actionType objectId = none :=
  List.findSome?_eq_none_iff

theorem resolveConflict_eq_none_of_subset
    {prohibitions more : List Prohibition} (hsubset : prohibitions ⊆ more)
    (hnone : resolveConflict leaseIssuerRole more actionType objectId = none) :
    resolveConflict leaseIssuerRole prohibitions actionType objectId = none := by
  rw [resolveConflict_eq_none_iff] at hnone ⊢
  exact fun p hp => hnone p (hsubset hp)

theorem resolveConflict_isSome_perm
    {prohibitions prohibitions' : List Prohibition}
    (hperm : prohibitions.Perm prohibitions') :
    (resolveConflict leaseIssuerRole prohibitions actionType objectId).isSome =
      (resolveConflict leaseIssuerRole prohibitions' actionType
        objectId).isSome := by
  rw [Bool.eq_iff_iff, Option.isSome_iff_ne_none, Option.isSome_iff_ne_none,
    not_iff_not]
  exact ⟨resolveConflict_eq_none_of_subset hperm.symm.subset,
    resolveConflict_eq_none_of_subset hperm.subset⟩

/-! ## Restriction -/

variable {env : LeaseEnv} {s : LeaseWorld} {request : ActionRequest}

theorem authorizeAllows_of_weaker
    {hooks more : List RestrictionHook}
    (hweaker : ∀ lease decision,
      (∀ hook ∈ more, hook request lease decision = .ok none) →
        ∀ hook ∈ hooks, hook request lease decision = .ok none)
    (hallows : AuthorizeAllows (env.withHooks more) s request) :
    AuthorizeAllows (env.withHooks hooks) s request := by
  rw [authorize_allows_iff] at hallows ⊢
  obtain ⟨lease, hdecides, hgranted⟩ := hallows
  exact ⟨lease, ⟨hdecides.found, hdecides.evaluated,
    hweaker lease _ hdecides.unvetoed⟩, hgranted⟩

/-- Adding hooks, or prohibitions to a hook made of them, turns no other answer of
`authorize` into ALLOW, and the order of the prohibitions does not decide
whether there is a conflict. -/
theorem restrict_only
    (env : LeaseEnv) (s : LeaseWorld) (request : ActionRequest) :
    (∀ hooks more : List RestrictionHook, hooks ⊆ more →
      ¬ AuthorizeAllows (env.withHooks hooks) s request →
        ¬ AuthorizeAllows (env.withHooks more) s request) ∧
    (∀ (earlier later : List RestrictionHook)
      (issuerRole : CapabilityLease → String)
      (prohibitions more : List Prohibition), prohibitions ⊆ more →
      ¬ AuthorizeAllows (env.withHooks
          (earlier ++ conflictHook issuerRole prohibitions :: later)) s request →
        ¬ AuthorizeAllows (env.withHooks
          (earlier ++ conflictHook issuerRole more :: later)) s request) ∧
    ∀ (leaseIssuerRole actionType objectId : String)
      (prohibitions prohibitions' : List Prohibition),
      prohibitions.Perm prohibitions' →
        (resolveConflict leaseIssuerRole prohibitions actionType
            objectId).isSome =
          (resolveConflict leaseIssuerRole prohibitions' actionType
            objectId).isSome := by
  refine ⟨fun hooks more hsubset hnot hallows => hnot ?_,
    fun earlier later issuerRole prohibitions more hsubset hnot hallows =>
      hnot ?_, fun _ _ _ _ _ hperm => resolveConflict_isSome_perm hperm⟩
  · exact authorizeAllows_of_weaker
      (fun _ _ haside hook hmem => haside hook (hsubset hmem)) hallows
  · refine authorizeAllows_of_weaker (fun lease decision haside => ?_) hallows
    rw [List.forall_mem_append, List.forall_mem_cons] at haside ⊢
    obtain ⟨hearlier, hconflict, hlater⟩ := haside
    refine ⟨hearlier, ?_, hlater⟩
    rw [conflictHook, Except.ok.injEq] at hconflict ⊢
    exact resolveConflict_eq_none_of_subset hsubset hconflict

end Hydrogenuine.Lease
