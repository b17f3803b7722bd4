import Hydrogenuine.Gpp.Engine
import Hydrogenuine.Support.Machine

/-!
# Permit lifecycles over whole runs

The permit authority and its store as a machine: permits are issued or put,
revoked and consumed in any order, with any identifiers and any clock values.
The consumption and revocation records are never erased by any operation, not
even by filing another permit under the same id, and they are what makes a
permit usable at most once.
-/

namespace Hydrogenuine.Gpp

open Support Hydrogenuine.Core

/-- The calls on a permit authority and its store. -/
inductive PermitCall where
  | issue (request : PermitRequest)
  | put (permit : GovernedPermit)
  | revoke (revocation : PermitRevocation)
  | consume (permitId now consumedBy handoffRef : String)

/-- What a call returns. -/
inductive PermitReply where
  | issued (decision : Except PyError PermitDecision)
  | stored
  | revoked (ok : Bool)
  | consumed (result : ConsumeResult)

abbrev PermitStep := Step PermitAuthority PermitCall PermitReply

variable (host : Host) (config : AuthorityConfig)

def permitStep
    (authority : PermitAuthority) : PermitCall → PermitAuthority × PermitReply
  | .issue request =>
      let issued := authority.issue host config request
      (issued.1, .issued issued.2)
  | .put permit =>
      ({ authority with store := authority.store.put permit }, .stored)
  | .revoke revocation =>
      let revoked := authority.revoke host revocation
      (revoked.1, .revoked revoked.2)
  | .consume permitId now consumedBy handoffRef =>
      let consumed :=
        authority.store.consume host permitId now consumedBy handoffRef
      ({ authority with store := consumed.1 }, .consumed consumed.2)

def permitMachine : Machine PermitAuthority PermitCall PermitReply where
  step := permitStep host config

/-- The step is a `consume` of this id that succeeded. -/
def consumesOk (permitId : String) (e : PermitStep) : Bool :=
  match e.input, e.output with
  | .consume id _ _ _, .consumed result => result.ok && decide (permitId = id)
  | _, _ => false

/-- The step is a `revoke` of this id that succeeded. -/
def revokesOk (permitId : String) (e : PermitStep) : Bool :=
  match e.input, e.output with
  | .revoke revocation, .revoked ok => ok && decide (permitId = revocation.permitId)
  | _, _ => false

/-! ## The two records only grow -/

variable {host config}

theorem permitStep_isConsumed
    (authority : PermitAuthority) (call : PermitCall) (permitId : String) :
    (permitStep host config authority call).1.store.isConsumed permitId =
      (authority.store.isConsumed permitId ||
        consumesOk permitId
          ((permitMachine host config).stepAt authority call)) := by
  cases call with
  | issue request =>
      have hkeep := authority.isConsumed_issue host config request permitId
      exact hkeep.trans (Bool.or_false _).symm
  | put permit => exact (Bool.or_false _).symm
  | revoke revocation =>
      have hkeep := PermitStore.isConsumed_revoke host authority.store
        revocation permitId
      exact hkeep.trans (Bool.or_false _).symm
  | consume id now consumedBy handoffRef =>
      exact PermitStore.isConsumed_consume host authority.store id now consumedBy
        handoffRef permitId

theorem permitStep_isRevoked
    (authority : PermitAuthority) (call : PermitCall) (permitId : String) :
    (permitStep host config authority call).1.store.isRevoked permitId =
      (authority.store.isRevoked permitId ||
        revokesOk permitId
          ((permitMachine host config).stepAt authority call)) := by
  cases call with
  | issue request =>
      have hkeep := authority.isRevoked_issue host config request permitId
      exact hkeep.trans (Bool.or_false _).symm
  | put permit => exact (Bool.or_false _).symm
  | revoke revocation =>
      exact PermitStore.isRevoked_revoke host authority.store revocation permitId
  | consume id now consumedBy handoffRef =>
      have hkeep := PermitStore.isRevoked_consume host authority.store id now
        consumedBy handoffRef permitId
      exact hkeep.trans (Bool.or_false _).symm

/-- What a successful consumption found: an unrevoked, never consumed permit
that is still inside its window. -/
theorem consumesOk_iff
    {authority : PermitAuthority} {call : PermitCall} {permitId : String} :
    consumesOk permitId ((permitMachine host config).stepAt authority call) =
        true ↔
      ∃ now consumedBy handoffRef permit,
        call = .consume permitId now consumedBy handoffRef ∧
          authority.store.get permitId = some permit ∧
          authority.store.isRevoked permitId = false ∧
          permit.status = .granted ∧
          isExpired host permit.expiresAt now = false ∧
          authority.store.isConsumed permitId = false := by
  constructor
  · intro hok
    cases call with
    | consume id now consumedBy handoffRef =>
        obtain ⟨hresult, rfl⟩ :
            (authority.store.consume host id now consumedBy handoffRef).2.ok =
              true ∧ permitId = id := by
          simpa [consumesOk, Machine.stepAt, permitMachine, permitStep] using hok
        obtain ⟨permit, hpermit⟩ := (PermitStore.consume_ok_iff ..).mp hresult
        exact ⟨now, consumedBy, handoffRef, permit, rfl, hpermit⟩
    | issue request => cases hok
    | put permit => cases hok
    | revoke revocation => cases hok
  · rintro ⟨now, consumedBy, handoffRef, permit, rfl, hpermit⟩
    have hresult := (PermitStore.consume_ok_iff host authority.store permitId now
      consumedBy handoffRef).mpr ⟨permit, hpermit⟩
    simpa [consumesOk, Machine.stepAt, permitMachine, permitStep] using hresult

/-! ## One use -/

theorem consumesOk_pairwise
    (authority : PermitAuthority) (calls : List PermitCall) (permitId : String) :
    ((permitMachine host config).trace authority calls).Pairwise fun e e' =>
      consumesOk permitId e = true → ¬ consumesOk permitId e' = true := by
  apply Machine.pairwise_of_barrier fun a : PermitAuthority =>
    a.store.isConsumed permitId = true
  · intro a call hok
    exact (permitStep_isConsumed a call permitId).trans (by simp [hok])
  · intro a call hconsumed
    exact (permitStep_isConsumed a call permitId).trans (by simp [hconsumed])
  · intro a call hconsumed hok
    obtain ⟨now, consumedBy, handoffRef, permit, -, -, -, -, -, hfresh⟩ :=
      consumesOk_iff.mp hok
    exact absurd (hfresh.symm.trans hconsumed) (by decide)

theorem revokesOk_consumesOk_pairwise
    (authority : PermitAuthority) (calls : List PermitCall) (permitId : String) :
    ((permitMachine host config).trace authority calls).Pairwise fun e e' =>
      revokesOk permitId e = true → ¬ consumesOk permitId e' = true := by
  apply Machine.pairwise_of_barrier fun a : PermitAuthority =>
    a.store.isRevoked permitId = true
  · intro a call hok
    exact (permitStep_isRevoked a call permitId).trans (by simp [hok])
  · intro a call hrevoked
    exact (permitStep_isRevoked a call permitId).trans (by simp [hrevoked])
  · intro a call hrevoked hok
    obtain ⟨now, consumedBy, handoffRef, permit, -, -, hlive, -⟩ :=
      consumesOk_iff.mp hok
    exact absurd (hlive.symm.trans hrevoked) (by decide)

/-- Over every sequence of calls from every permit authority, a permit id is
consumed at most once, never after a revocation of it has succeeded, and only
while its readable expiry lies strictly after the supplied time. -/
theorem permit_consumed_at_most_once
    (host : Host) (config : AuthorityConfig) (authority : PermitAuthority)
    (calls : List PermitCall) (permitId : String) :
    ((permitMachine host config).trace authority calls).countP
        (consumesOk permitId) ≤ 1 ∧
      (((permitMachine host config).trace authority calls).Pairwise fun e e' =>
        revokesOk permitId e = true → ¬ consumesOk permitId e' = true) ∧
      ∀ e ∈ (permitMachine host config).trace authority calls,
        consumesOk permitId e = true →
          ∃ now consumedBy handoffRef permit expiry current,
            e.input = .consume permitId now consumedBy handoffRef ∧
              e.before.store.get permitId = some permit ∧
              parseRfc3339Z host permit.expiresAt = some expiry ∧
              parseRfc3339Z host now = some current ∧
              current.instant < expiry.instant := by
  refine ⟨countP_le_one_of_pairwise (consumesOk_pairwise ..),
    revokesOk_consumesOk_pairwise .., ?_⟩
  intro e he hok
  rw [Machine.mem_trace_eq_stepAt he] at hok
  obtain ⟨now, consumedBy, handoffRef, permit, hinput, hget, -, -, hexpiry, -⟩ :=
    consumesOk_iff.mp hok
  obtain ⟨expiry, current, hparse, hnow, hlt⟩ :=
    (isExpired_eq_false_iff host permit.expiresAt now).mp hexpiry
  exact ⟨now, consumedBy, handoffRef, permit, expiry, current, hinput, hget,
    hparse, hnow, hlt⟩

end Hydrogenuine.Gpp
