import Hydrogenuine.Lease.Authorization

/-!
# When `authorize` allows

`authorize` picks one lease by subject, action and object, evaluates the request
under it, runs the restriction hooks and asks the permit authority.  It answers
ALLOW exactly when all four agree; `authorize_allows_iff` says so in terms of
the state before the call.
-/

namespace Hydrogenuine.Lease

open Support Hydrogenuine.Core Gpp

variable {env : LeaseEnv} {s t : LeaseWorld} {request : ActionRequest}
  {lease : CapabilityLease}

def AuthorizeAllows
    (env : LeaseEnv) (s : LeaseWorld) (request : ActionRequest) : Prop :=
  ∃ answer, outcome (authorize env request) s = .ok answer ∧
    answer.decision.outcome = .allow

/-- `evaluate` allows the request under a lease, at the reading of the clock that
`authorize` takes. -/
def EvaluatesToAllow
    (env : LeaseEnv) (s : LeaseWorld) (request : ActionRequest)
    (lease : CapabilityLease) : Prop :=
  ∃ reasons, verdict env.host request (some lease) (s.policyFor lease)
    (snapshot s.situation (env.clock s.ticks).1) (env.clock s.ticks).1
    (env.clock s.ticks).2 s.seenRequestIds = .ok (.allow, reasons)

def allowance
    (env : LeaseEnv) (s : LeaseWorld) (request : ActionRequest)
    (lease : CapabilityLease) : Decision :=
  newDecision env.host request .allow [] (some lease)
    (snapshotHash env.host (snapshot s.situation (env.clock s.ticks).1))
    (env.clock s.ticks).1 ("dec_" ++ env.host.uuidHex s.uuids)

/-- The permit authority grants the permit that `authorize` asks it for. -/
def PermitGranted
    (env : LeaseEnv) (s : LeaseWorld) (request : ActionRequest)
    (lease : CapabilityLease) : Prop :=
  ∃ permitDecision permit,
    ({ s.gpp with uuids := s.uuids + 1 }.issue env.host env.gpp
      (executionPermitRequest env request lease
        (allowance env s request lease))).2 = .ok permitDecision ∧
    permitDecision.status = .granted ∧ permitDecision.permit = some permit

instance (env : LeaseEnv) (s : LeaseWorld) (request : ActionRequest)
    (lease : CapabilityLease) : Decidable (EvaluatesToAllow env s request lease) :=
  decidable_of_iff (verdict env.host request (some lease) (s.policyFor lease)
      (snapshot s.situation (env.clock s.ticks).1) (env.clock s.ticks).1
      (env.clock s.ticks).2 s.seenRequestIds = .ok (.allow, []))
    ⟨fun h => ⟨[], h⟩, fun ⟨_, h⟩ => by
      obtain ⟨_, _, -, -, -, rfl⟩ := exists_of_verdict_allow h
      exact h⟩

instance (env : LeaseEnv) (s : LeaseWorld) (request : ActionRequest)
    (lease : CapabilityLease) : Decidable (PermitGranted env s request lease) :=
  decidable_of_iff
    ((match ({ s.gpp with uuids := s.uuids + 1 }.issue env.host env.gpp
        (executionPermitRequest env request lease
          (allowance env s request lease))).2 with
      | .ok permitDecision =>
          decide (permitDecision.status = .granted) && permitDecision.permit.isSome
      | .error _ => false) = true) (by
      unfold PermitGranted
      split
      next permitDecision hissued =>
        rw [hissued, Bool.and_eq_true, decide_eq_true_eq, Option.isSome_iff_exists]
        constructor
        · rintro ⟨hgranted, permit, hpermit⟩
          exact ⟨permitDecision, permit, rfl, hgranted, hpermit⟩
        · rintro ⟨other, permit, hother, hgranted, hpermit⟩
          obtain rfl := Except.ok.inj hother
          exact ⟨hgranted, permit, hpermit⟩
      next e hissued =>
        rw [hissued]
        simp)

def decided (s : LeaseWorld) (request : ActionRequest) : LeaseWorld :=
  { s with
    ticks := s.ticks + 1
    uuids := s.uuids + 1
    seenRequestIds := request.requestId :: s.seenRequestIds }

/-! ## The hooks -/

variable {decision : Decision}

theorem mapM_hooks_eq_nil_iff (hooks : List RestrictionHook) :
    (hooks.mapM fun (hook : RestrictionHook) =>
        hook request lease decision).map (·.filterMap id) = .ok [] ↔
      ∀ hook ∈ hooks, hook request lease decision = .ok none := by
  induction hooks with
  | nil => simp [Except.map, pure, Except.pure]
  | cons hook hooks ih =>
      rw [List.mapM_cons, List.forall_mem_cons, ← ih]
      cases hook request lease decision with
      | error e => simp [bind, Except.bind, Except.map]
      | ok veto =>
          cases hooks.mapM fun (hook : RestrictionHook) =>
              hook request lease decision with
          | error e => simp [bind, Except.bind, Except.map]
          | ok vetoes =>
              cases veto <;> simp [bind, Except.bind, Except.map, pure, Except.pure]

theorem runHooks_eq_nil_iff :
    runHooks env request lease decision = .ok [] ↔
      ∀ hook ∈ env.hooks, hook request lease decision = .ok none :=
  mapM_hooks_eq_nil_iff env.hooks

/-! ## The stages -/

/-- What the deciding stage has checked when it allows. -/
structure DecidesToAllow
    (env : LeaseEnv) (s : LeaseWorld) (request : ActionRequest)
    (lease : CapabilityLease) : Prop where
  found : s.findLease request = some lease
  evaluated : EvaluatesToAllow env s request lease
  unvetoed : ∀ hook ∈ env.hooks,
    hook request lease (allowance env s request lease) = .ok none

theorem decideRequest_allows (s : LeaseWorld) (request : ActionRequest) :
    Ends (decideRequest env request) s
      (fun result t => result.2.1.outcome = .allow →
        ∃ lease, DecidesToAllow env s request lease ∧ t = decided s request ∧
          result = (some lease, allowance env s request lease, []))
      (fun _ _ => True) := by
  unfold decideRequest
  apply ends_bind
  apply ends_readClock
  apply ends_bind
  apply ends_get
  apply ends_bind
  dsimp only
  apply ends_raising
  · rintro ⟨outcome, reasons⟩ hverdict
    apply ends_bind
    apply ends_drawUuid
    apply ends_bind
    apply ends_modify
    split
    next lease hallow hlease =>
      obtain rfl : outcome = .allow := hallow
      rw [hlease] at hverdict
      obtain ⟨-, -, -, -, -, rfl⟩ := exists_of_verdict_allow hverdict
      apply ends_bind
      apply ends_raising
      · intro vetoes hvetoes
        split_ifs with hnone
        · subst hnone
          refine ends_pure fun _ => ⟨lease, ⟨hlease, ⟨_, hverdict⟩, ?_⟩, rfl, ?_⟩
          · rw [hlease] at hvetoes
            exact runHooks_eq_nil_iff.mp hvetoes
          · rw [hlease]
            rfl
        · refine ends_pure fun hdenied => ?_
          cases hdenied
      · exact fun _ _ => trivial
    next hother =>
      refine ends_pure fun hallow => ?_
      obtain rfl : outcome = .allow := hallow
      obtain ⟨-, lease, hfind, -⟩ := verdict_allow hverdict
      exact absurd hfind (hother lease rfl)
  · exact fun _ _ => trivial

theorem decideRequest_eq (h : DecidesToAllow env s request lease) :
    decideRequest env request s =
      .ok (some lease, allowance env s request lease, []) (decided s request) := by
  obtain ⟨reasons, hverdict⟩ := h.evaluated
  obtain ⟨_, _, -, -, -, rfl⟩ := exists_of_verdict_allow hverdict
  have hhooks := runHooks_eq_nil_iff.mpr h.unvetoed
  have hpolicy : (some lease).bind s.policyFor = s.policyFor lease := rfl
  have hfound : LeaseWorld.findLease { s with ticks := s.ticks + 1 } request =
      some lease := h.found
  change (raising (verdict env.host request (s.findLease request)
    ((s.findLease request).bind s.policyFor) (snapshot s.situation (env.clock s.ticks).1)
    (env.clock s.ticks).1 (env.clock s.ticks).2 s.seenRequestIds) >>= _ : LeaseM _)
    { s with ticks := s.ticks + 1 } = _
  rw [h.found, hpolicy, hverdict, raising_bind_apply]
  simp only [hfound]
  change (raising (runHooks env request lease (allowance env s request lease)) >>=
    _ : LeaseM _) (decided s request) = _
  rw [hhooks, raising_bind_apply]
  rfl

theorem transition_returns
    {leaseId : String} {event : LeaseEvent}
    (h : ∀ filed, s.leases.get leaseId = some filed →
      filed.state.isTerminal = true ∨ transitions filed.state event ≠ none)
    (reasonCode detail : String) :
    Ends (transition env leaseId event reasonCode detail) s (fun _ _ => True)
      (fun _ _ => False) := by
  unfold transition
  apply ends_bind
  apply ends_get
  split
  · exact ends_pure trivial
  next filed hget =>
    split_ifs with hterminal
    · exact ends_pure trivial
    · apply ends_bind
      apply ends_readClock
      apply ends_bind
      apply ends_drawUuid
      apply ends_bind
      apply ends_raising
      · intro _ _
        exact ends_putLease trivial
      · intro e he
        have hnext := (h filed hget).resolve_left hterminal
        unfold applyTransition at he
        split_ifs at he
        cases hedge : transitions filed.state event with
        | none => exact hnext hedge
        | some state =>
            rw [hedge] at he
            cases he

theorem consume_returns
    (hget : s.leases.get lease.leaseId = some lease)
    (hactive : lease.state = .active) :
    Ends (consume env lease) s (fun _ _ => True) (fun _ _ => False) := by
  unfold consume
  apply ends_bind
  apply ends_get
  rw [hget]
  dsimp only
  have hdebited : (consumeUse lease).1.leaseId = lease.leaseId ∧
      (consumeUse lease).1.state = .active := by
    unfold consumeUse
    split
    · exact ⟨rfl, hactive⟩
    · split_ifs
      · exact ⟨rfl, hactive⟩
      · exact ⟨rfl, hactive⟩
  apply ends_bind
  apply ends_putLease
  split_ifs
  · apply transition_returns
    intro filed hfiled
    right
    rw [LeaseStore.get_put, Function.update_self, Option.some.injEq] at hfiled
    rw [← hfiled, hdebited.2]
    decide
  · exact ends_pure trivial

theorem bindPermit_allows
    (hget : s.leases.get lease.leaseId = some lease)
    (hactive : lease.state = .active) :
    Ends (bindPermit env request (some lease) (allowance env s request lease))
      (decided s request)
      (fun result _ => result.1.outcome = .allow ↔
        PermitGranted env s request lease)
      (fun _ _ => ¬ PermitGranted env s request lease) := by
  unfold bindPermit
  have hallow : (allowance env s request lease).outcome = .allow := rfl
  rw [hallow]
  dsimp only
  apply ends_bind
  unfold mintExecutionPermit
  apply ends_bind
  apply ends_get
  apply ends_bind
  apply ends_modify
  apply ends_bind
  apply ends_raising
  · intro permitDecision hissued
    split
    next permit hgranted hpermit =>
      apply ends_bind
      apply ends_modify
      apply ends_pure
      apply ends_bind
      refine ends_mono (consume_returns hget hactive) ?_ (fun _ _ h => h.elim)
      intro _ _ _
      exact ends_pure (iff_of_true rfl
        ⟨permitDecision, permit, hissued, hgranted, hpermit⟩)
    next hother =>
      apply ends_pure
      refine ends_pure (iff_of_false (fun h => by cases h) ?_)
      rintro ⟨other, permit, hother', hgranted, hpermit⟩
      obtain rfl := Except.ok.inj (hissued.symm.trans hother')
      exact hother permit hgranted hpermit
  · rintro e hissued ⟨other, permit, hother', -⟩
    cases hissued.symm.trans hother'

theorem DecidesToAllow.filed (h : DecidesToAllow env s request lease) :
    s.leases.get lease.leaseId = some lease ∧ lease.state = .active := by
  obtain ⟨_, hverdict⟩ := h.evaluated
  obtain ⟨_, _, hlease, -, hadmits, -⟩ := exists_of_verdict_allow hverdict
  obtain rfl := Option.some.inj hlease
  exact ⟨get_of_findLease h.found, hadmits.active⟩

theorem bindPermit_denied
    {found : Option CapabilityLease}
    (h : decision.outcome ≠ .allow) :
    bindPermit env request found decision = pure (decision, none) := by
  unfold bindPermit
  split
  next hallow => exact absurd hallow h
  · rfl

/-- `authorize` allows exactly when the lease that it picks passes the
evaluation, no hook vetoes and the permit is granted. -/
theorem authorize_allows_iff :
    AuthorizeAllows env s request ↔
      ∃ lease, DecidesToAllow env s request lease ∧
        PermitGranted env s request lease := by
  constructor
  · rintro ⟨answer, houtcome, hallow⟩
    have hends : Ends (authorize env request) s
        (fun answer _ => answer.decision.outcome = .allow →
          ∃ lease, DecidesToAllow env s request lease ∧
            PermitGranted env s request lease) (fun _ _ => True) := by
      unfold authorize
      apply ends_bind
      refine ends_mono (decideRequest_allows s request) ?_ (fun _ _ h => h)
      rintro ⟨found, decision, vetoes⟩ t hdecided
      by_cases hdecision : decision.outcome = .allow
      · obtain ⟨lease, hdecides, rfl, hresult⟩ := hdecided hdecision
        cases hresult
        obtain ⟨hget, hactive⟩ := hdecides.filed
        apply ends_bind
        refine ends_mono (bindPermit_allows hget hactive) ?_ (fun _ _ _ => trivial)
        rintro ⟨final, permitId⟩ u hgranted
        apply ends_bind
        apply ends_fileReceipt
        intro receipt
        exact ends_pure fun hfinal => ⟨lease, hdecides, hgranted.mp hfinal⟩
      · dsimp only
        rw [bindPermit_denied hdecision]
        apply ends_bind
        apply ends_pure
        apply ends_bind
        apply ends_fileReceipt
        intro receipt
        exact ends_pure fun hfinal => absurd hfinal hdecision
    rcases hends.cases with ⟨other, hother, hall⟩ | ⟨e, hraised, -⟩
    · obtain rfl := Except.ok.inj (houtcome.symm.trans hother)
      exact hall hallow
    · cases houtcome.symm.trans hraised
  · rintro ⟨lease, hdecides, hpermit⟩
    obtain ⟨hget, hactive⟩ := hdecides.filed
    have hends : Ends (authorize env request) s
        (fun answer _ => answer.decision.outcome = .allow) (fun _ _ => False) := by
      unfold authorize
      apply ends_bind
      refine ends_mono ends_outcome ?_ ?_
      · rintro result t ⟨hresult, rfl⟩
        rw [outcome, decideRequest_eq hdecides, Except.ok.injEq] at hresult
        rw [finalState, decideRequest_eq hdecides, ← hresult]
        apply ends_bind
        refine ends_mono (bindPermit_allows hget hactive) ?_
          (fun _ _ h => h hpermit)
        rintro ⟨final, permitId⟩ u hgranted
        apply ends_bind
        apply ends_fileReceipt
        intro receipt
        exact ends_pure (hgranted.mpr hpermit)
      · rintro e t ⟨hraised, -⟩
        rw [outcome, decideRequest_eq hdecides] at hraised
        cases hraised
    rcases hends.cases with ⟨answer, houtcome, hallow⟩ | ⟨_, -, hfalse⟩
    · exact ⟨answer, houtcome, hallow⟩
    · exact hfalse.elim

end Hydrogenuine.Lease
