import Hydrogenuine.Lease.Allowance
import Hydrogenuine.Lease.System

/-!
# Which lease a request is evaluated under

`find_lease` picks the first active lease that matches a request by subject,
action and object, before anything else about it is looked at.  A request that
another lease would allow is refused when the first one does not allow it; the
lookup is complete exactly when the first match is good enough.
-/

namespace Hydrogenuine.Lease

open Support Hydrogenuine.Core Gpp

def SomeLeaseAllows
    (env : LeaseEnv) (s : LeaseWorld) (request : ActionRequest) : Prop :=
  ∃ lease ∈ s.leases.all, EvaluatesToAllow env s request lease

/-- The permit authority grants whatever an evaluation allows. -/
def Grants
    (env : LeaseEnv) (s : LeaseWorld) (request : ActionRequest) : Prop :=
  ∀ lease ∈ s.leases.all, EvaluatesToAllow env s request lease →
    PermitGranted env s request lease

instance (env : LeaseEnv) (s : LeaseWorld) (request : ActionRequest) :
    Decidable (SomeLeaseAllows env s request) :=
  inferInstanceAs (Decidable (∃ lease ∈ s.leases.all, _))

instance (env : LeaseEnv) (s : LeaseWorld) (request : ActionRequest) :
    Decidable (Grants env s request) :=
  inferInstanceAs (Decidable (∀ lease ∈ s.leases.all, _))

variable {env : LeaseEnv} {s : LeaseWorld} {request : ActionRequest}

/-- Without hooks, and with a permit authority that grants, `authorize` allows
exactly what the lease that it finds allows. -/
theorem authorizeAllows_iff_found
    (hhooks : env.hooks = []) (hgrants : Grants env s request) :
    AuthorizeAllows env s request ↔
      ∃ lease, s.findLease request = some lease ∧
        EvaluatesToAllow env s request lease := by
  rw [authorize_allows_iff]
  constructor
  · rintro ⟨lease, hdecides, -⟩
    exact ⟨lease, hdecides.found, hdecides.evaluated⟩
  · rintro ⟨lease, hfound, hevaluated⟩
    have hmem : lease ∈ s.leases.all :=
      LeaseStore.mem_all_iff.mpr (get_of_findLease hfound)
    refine ⟨lease, ⟨hfound, hevaluated, ?_⟩, hgrants lease hmem hevaluated⟩
    rw [hhooks]
    exact fun _ hhook => absurd hhook List.not_mem_nil

theorem mem_activeFor_of_evaluatesToAllow
    {lease : CapabilityLease} (hmem : lease ∈ s.leases.all)
    (hevaluated : EvaluatesToAllow env s request lease) :
    lease ∈ s.leases.activeFor request.subject request.actionType
      request.objectId := by
  obtain ⟨_, hverdict⟩ := hevaluated
  obtain ⟨_, _, hlease, -, hadmits, -⟩ := exists_of_verdict_allow hverdict
  obtain rfl := Option.some.inj hlease
  rw [LeaseStore.activeFor, List.mem_filter]
  refine ⟨hmem, ?_⟩
  simp [hadmits.active, hadmits.subject, hadmits.action, hadmits.object]

/-- The lookup is complete for a request exactly when, as soon as some lease
allows it, the first active lease with its subject, action and object does. -/
theorem lookup_complete_iff
    (env : LeaseEnv) (s : LeaseWorld) (request : ActionRequest)
    (hhooks : env.hooks = []) (hgrants : Grants env s request) :
    (SomeLeaseAllows env s request → AuthorizeAllows env s request) ↔
      (SomeLeaseAllows env s request →
        ∀ first ∈ (s.leases.activeFor request.subject request.actionType
          request.objectId).head?, EvaluatesToAllow env s request first) := by
  rw [authorizeAllows_iff_found hhooks hgrants]
  refine imp_congr_right fun ⟨lease, hmem, hevaluated⟩ => ?_
  have hcandidate := mem_activeFor_of_evaluatesToAllow hmem hevaluated
  change (∃ lease, (s.leases.activeFor request.subject request.actionType
    request.objectId).head? = some lease ∧ _) ↔ _
  cases hhead : (s.leases.activeFor request.subject request.actionType
      request.objectId).head? with
  | none =>
      rw [List.head?_eq_none_iff] at hhead
      rw [hhead] at hcandidate
      exact absurd hcandidate List.not_mem_nil
  | some first => simp

def heatPolicy : CanonicalPolicy := { referencePolicy 1 with purpose := "heat" }

def twoPurposes : LeaseWorld :=
  (leaseMachine referenceEnv).final referenceWorld
    [.mint heatPolicy (confirmationOf referenceHost heatPolicy) none,
      referenceMint 1 none]

theorem lookup_complete_iff_light :
    (SomeLeaseAllows referenceEnv twoPurposes (referenceAction "r1" "agent:lamp") →
        AuthorizeAllows referenceEnv twoPurposes
          (referenceAction "r1" "agent:lamp")) ↔
      (SomeLeaseAllows referenceEnv twoPurposes
          (referenceAction "r1" "agent:lamp") →
        ∀ first ∈ (twoPurposes.leases.activeFor "agent:lamp" "lamp.on"
          "lamp-1").head?, EvaluatesToAllow referenceEnv twoPurposes
            (referenceAction "r1" "agent:lamp") first) :=
  lookup_complete_iff referenceEnv twoPurposes
    (referenceAction "r1" "agent:lamp") rfl (by decide +kernel)

/-- The lease for light would allow the request, but the lease for heat was
minted before it. -/
theorem first_match_hides_lease :
    ¬ ∀ (env : LeaseEnv) (s : LeaseWorld) (request : ActionRequest),
      env.hooks = [] → Grants env s request → SomeLeaseAllows env s request →
        AuthorizeAllows env s request := by
  intro hcomplete
  have hgrants : Grants referenceEnv twoPurposes
      (referenceAction "r1" "agent:lamp") := by decide +kernel
  have hsome : SomeLeaseAllows referenceEnv twoPurposes
      (referenceAction "r1" "agent:lamp") := by decide +kernel
  have hallows := hcomplete referenceEnv twoPurposes _ rfl hgrants hsome
  obtain ⟨first, hfound, hevaluated⟩ :=
    (authorizeAllows_iff_found rfl hgrants).mp hallows
  have hnot : ∀ first ∈ twoPurposes.findLease (referenceAction "r1" "agent:lamp"),
      ¬ EvaluatesToAllow referenceEnv twoPurposes
        (referenceAction "r1" "agent:lamp") first := by
    decide +kernel
  exact hnot first hfound hevaluated

end Hydrogenuine.Lease
