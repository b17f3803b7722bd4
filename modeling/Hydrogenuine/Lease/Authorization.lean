import Hydrogenuine.Lease.Effects

/-!
# What an authorization does

`authorize` runs through evaluation, restriction hooks, the permit authority,
the debit of a use and the receipt.  Its specification has one clause for a
refusal and one for an allowance, whichever stage decided; when it raises, no
lease, receipt or minted permit has changed.
-/

namespace Hydrogenuine.Lease

open Support Hydrogenuine.Core Gpp

variable {env : LeaseEnv} {s t : LeaseWorld}

/-! ## Evaluation and hooks -/

/-- An allowance rests on an unseen request and on a stored, active lease with
a use left. -/
structure AllowedBy
    (s : LeaseWorld) (request : ActionRequest) (lease : CapabilityLease) :
    Prop where
  unseen : request.requestId ∉ s.seenRequestIds
  filed : s.leases.get lease.leaseId = some lease
  active : lease.state = .active
  uses : ∀ n, lease.remainingUses = some n → 0 < n

theorem get_of_findLease
    {request : ActionRequest} {lease : CapabilityLease}
    (hfind : s.findLease request = some lease) :
    s.leases.get lease.leaseId = some lease := by
  have hmem := List.mem_of_mem_head? hfind
  rw [LeaseStore.activeFor, List.mem_filter] at hmem
  exact LeaseStore.mem_all_iff.mp hmem.1

/-- Nothing that leases, receipts or permits are read from has changed. -/
structure Untouched (s t : LeaseWorld) : Prop where
  leases : t.leases = s.leases
  receipts : t.receipts = s.receipts
  policies : t.policies = s.policies
  minted : t.mintedPermits = s.mintedPermits
  store : t.gpp.store = s.gpp.store
  uuids : s.uuids ≤ t.uuids

theorem decideRequest_ends (s : LeaseWorld) (request : ActionRequest) :
    Ends (decideRequest env request) s
      (fun result t => Untouched s t ∧
        t.seenRequestIds = request.requestId :: s.seenRequestIds ∧
        result.2.1.requestId = request.requestId ∧
        result.2.1.leaseId = result.1.map CapabilityLease.leaseId ∧
        (result.2.1.outcome = .allow →
          ∃ lease, result.1 = some lease ∧ AllowedBy s request lease))
      (fun _ t => Untouched s t ∧ t.seenRequestIds ⊇ s.seenRequestIds) := by
  unfold decideRequest
  apply ends_bind
  apply ends_readClock
  apply ends_bind
  apply ends_get
  apply ends_bind
  dsimp only
  apply ends_raising
  · rintro ⟨outcome, reasons⟩ hverdict
    have hallowed : outcome = .allow →
        ∃ lease, s.findLease request = some lease ∧
          AllowedBy s request lease := by
      rintro rfl
      obtain ⟨hunseen, lease, hfind, hactive, huses⟩ := verdict_allow hverdict
      exact ⟨lease, hfind, hunseen, get_of_findLease hfind, hactive, huses⟩
    apply ends_bind
    apply ends_drawUuid
    apply ends_bind
    apply ends_modify
    have htouched (seen : List String) : Untouched s
        { s with
          seenRequestIds := seen
          ticks := s.ticks + 1
          uuids := s.uuids + 1 } :=
      ⟨rfl, rfl, rfl, rfl, rfl, Nat.le_succ _⟩
    split
    next lease hallow hlease =>
      apply ends_bind
      apply ends_raising
      · intro vetoes _
        split_ifs
        · exact ends_pure ⟨htouched _, rfl, rfl, rfl, hallowed⟩
        · refine ends_pure ⟨htouched _, rfl, rfl, rfl, ?_⟩
          intro hdenied
          cases hdenied
      · intro e _
        exact ⟨htouched _, List.subset_cons_self _ _⟩
    · exact ends_pure ⟨htouched _, rfl, rfl, rfl, hallowed⟩
  · intro e _
    exact ⟨⟨rfl, rfl, rfl, rfl, rfl, le_rfl⟩, List.Subset.refl _⟩

/-! ## The permit -/

theorem permitsKept_of_put
    {permit : GovernedPermit}
    (hstore : t.gpp.store = s.gpp.store.put permit) :
    PermitsKept s t ∧ t.known permit.permitId = true := by
  refine ⟨⟨?_, ?_, ?_, ?_⟩, ?_⟩
  · intro permitId hrevoked
    rw [hstore, PermitStore.isRevoked_put]
    exact hrevoked
  · intro permitId hconsumed
    rw [hstore, PermitStore.isConsumed_put]
    exact hconsumed
  · intro permitId hconsumed
    rw [hstore, PermitStore.isConsumed_put] at hconsumed
    exact Or.inl hconsumed
  · intro permitId hknown
    rw [LeaseWorld.known, hstore, PermitStore.get_put]
    split_ifs
    · rfl
    · exact hknown
  · rw [LeaseWorld.known, hstore, PermitStore.get_put, if_pos rfl]
    rfl

/-- What stays while a permit is minted. -/
structure PermitStage (s t : LeaseWorld) : Prop where
  leases : t.leases = s.leases
  receipts : t.receipts = s.receipts
  policies : t.policies = s.policies
  seen : t.seenRequestIds = s.seenRequestIds
  uuids : s.uuids ≤ t.uuids
  kept : PermitsKept s t

/-- The permit is known to the permit authority and recorded under the
lease. -/
def Records (s t : LeaseWorld) (leaseId permitId : String) : Prop :=
  t.known permitId = true ∧
    t.mintedPermits = s.mintedPermits.set leaseId
      (s.minted leaseId ++ [permitId])

theorem mintExecutionPermit_ends
    (s : LeaseWorld) (request : ActionRequest) (lease : CapabilityLease)
    (decision : Decision) :
    Ends (mintExecutionPermit env request lease decision) s
      (fun permitId t => PermitStage s t ∧
        (permitId = none → t.mintedPermits = s.mintedPermits) ∧
        ∀ id, permitId = some id → Records s t lease.leaseId id)
      (fun _ t => Untouched s t ∧ t.seenRequestIds = s.seenRequestIds) := by
  unfold mintExecutionPermit
  apply ends_bind
  apply ends_get
  apply ends_bind
  apply ends_modify
  apply ends_bind
  have huuids := PermitAuthority.uuids_le_issue env.host env.gpp
    { s.gpp with uuids := s.uuids }
    (executionPermitRequest env request lease decision)
  have hcases := PermitAuthority.issue_cases env.host env.gpp
    { s.gpp with uuids := s.uuids }
    (executionPermitRequest env request lease decision)
  generalize { s.gpp with uuids := s.uuids }.issue env.host env.gpp
    (executionPermitRequest env request lease decision) = issued
    at huuids hcases
  rcases hcases with ⟨hstore, hdenied⟩ | ⟨permit, granted, hstore, hreply,
    hstatus, hpermit, -⟩
  · apply ends_raising
    · intro answer hanswer
      have hstatus := hdenied answer hanswer
      split
      next hgranted _ =>
        rw [hstatus] at hgranted
        cases hgranted
      · refine ends_pure ⟨⟨rfl, rfl, rfl, rfl, huuids, ?_⟩, fun _ => rfl, ?_⟩
        · exact permitsKept_of_store hstore
        · intro id hid
          cases hid
    · intro e _
      exact ⟨⟨rfl, rfl, rfl, rfl, hstore, huuids⟩, rfl⟩
  · apply ends_raising
    · intro answer hanswer
      rw [hreply, Except.ok.injEq] at hanswer
      subst hanswer
      rw [hstatus, hpermit]
      apply ends_bind
      apply ends_modify
      apply ends_pure
      refine ⟨⟨rfl, rfl, rfl, rfl, huuids, (permitsKept_of_put hstore).1⟩, ?_, ?_⟩
      · intro hnone
        cases hnone
      · intro id hid
        obtain rfl := Option.some.inj hid
        exact ⟨(permitsKept_of_put hstore).2, rfl⟩
    · intro e he
      rw [hreply] at he
      cases he

/-! ## The debit -/

theorem fresh_replace
    (hs : s.Fresh env.host) {leaseId : String} {lease lease' : CapabilityLease}
    (hget : s.leases.get leaseId = some lease)
    (hevents : lease'.appliedEventIds = lease.appliedEventIds)
    (hleases : t.leases.get =
      Function.update s.leases.get leaseId (some lease'))
    (huuids : s.uuids ≤ t.uuids) : t.Fresh env.host where
  leaseIds k hk := by
    have hfresh := hs.leaseIds k (huuids.trans hk)
    have hne : leaseIdOf (env.host.uuidHex k) ≠ leaseId := by
      rintro rfl
      rw [hget] at hfresh
      cases hfresh
    rw [hleases, Function.update_of_ne hne]
    exact hfresh
  eventIds other filed hfiled k hk tag htag := by
    rw [hleases] at hfiled
    by_cases heq : other = leaseId
    · subst heq
      rw [Function.update_self, Option.some.injEq] at hfiled
      subst hfiled
      rw [hevents]
      exact hs.eventIds other lease hget k (huuids.trans hk) tag htag
    · rw [Function.update_of_ne heq] at hfiled
      exact hs.eventIds other filed hfiled k (huuids.trans hk) tag htag

/-- The specification of `_consume` on a lease that was allowed: it never
raises, and spends exactly one use of that lease. -/
theorem consume_ends
    (hs : s.Fresh env.host) {lease : CapabilityLease}
    (hget : s.leases.get lease.leaseId = some lease)
    (hactive : lease.state = .active)
    (huses : ∀ n, lease.remainingUses = some n → 0 < n) :
    Ends (consume env lease) s
      (fun _ t => OnlyLeases s t ∧ t.Fresh env.host ∧
        ∃ lease', Spends lease lease' ∧
          t.leases.get =
            Function.update s.leases.get lease.leaseId (some lease'))
      (fun _ _ => False) := by
  unfold consume
  apply ends_bind
  apply ends_get
  rw [hget]
  cases hremaining : lease.remainingUses with
  | none =>
      simp only [consumeUse, hremaining]
      have hput := LeaseStore.get_put s.leases lease none
      apply ends_bind
      apply ends_putLease
      exact ends_pure ⟨rfl, fresh_replace hs hget rfl hput le_rfl, lease,
        ⟨hactive, Or.inl ⟨hremaining, rfl⟩⟩, hput⟩
  | some n =>
      have hpos := huses n hremaining
      have hdebit : consumeUse lease =
          ({ lease with remainingUses := some (n - 1) }, n - 1 == 0) := by
        simp only [consumeUse, hremaining, if_neg (not_le.mpr hpos)]
      simp only [hdebit]
      generalize hdebited : { lease with remainingUses := some (n - 1) } =
        debited
      have hid : debited.leaseId = lease.leaseId := by rw [← hdebited]
      have hevents : debited.appliedEventIds = lease.appliedEventIds := by
        rw [← hdebited]
      have hstate : debited.state = .active := by rw [← hdebited, hactive]
      have hput := LeaseStore.get_put s.leases debited none
      rw [hid] at hput
      have hfresh : LeaseWorld.Fresh env.host
          { s with leases := s.leases.put debited none } :=
        fresh_replace hs hget hevents hput le_rfl
      apply ends_bind
      apply ends_putLease
      split_ifs with hlast
      · have hone : n = 1 := by
          have hzero := beq_iff_eq.mp hlast
          omega
        subst hone
        have hfiled := (congrFun hput lease.leaseId).trans
          (Function.update_self ..)
        have hnext : transitions debited.state .exhaust = some .exhausted := by
          rw [hstate]
          rfl
        refine ends_mono (transition_moves hfresh hfiled hnext _ _) ?_
          (fun _ _ h => h)
        rintro _ t ⟨honly, ht, eventId, hbook⟩
        refine ⟨?_, ht, debited.advance .exhausted eventId, ?_, ?_⟩
        · rw [OnlyLeases] at honly ⊢
          exact honly
        · rw [← hdebited]
          exact ⟨hactive, Or.inr (Or.inr ⟨hremaining, eventId, rfl⟩)⟩
        · rw [hbook]
          exact (congrArg (Function.update · lease.leaseId _) hput).trans
            (Function.update_idem ..)
      · have hmore : 1 < n := by
          have hne : n - 1 ≠ 0 := by simpa using hlast
          omega
        refine ends_pure ⟨rfl, hfresh, debited, ?_, hput⟩
        exact ⟨hactive, Or.inr (Or.inl ⟨n, hremaining, hmore, hdebited.symm⟩)⟩

/-! ## The whole authorization -/

/-- The request was refused: no lease is debited and no permit minted. -/
structure Refused (s t : LeaseWorld) (answer : AuthorizedAction) : Prop where
  outcome : answer.decision.outcome ≠ .allow
  leases : t.leases = s.leases
  minted : t.mintedPermits = s.mintedPermits

/-- The request was allowed under `lease`, which spent one use, and a permit
was minted under it. -/
structure Allowed
    (s t : LeaseWorld) (request : ActionRequest) (answer : AuthorizedAction)
    (lease lease' : CapabilityLease) (permitId : String) : Prop where
  outcome : answer.decision.outcome = .allow
  leaseId : answer.decision.leaseId = some lease.leaseId
  permit : answer.permitId = some permitId
  by_lease : AllowedBy s request lease
  spends : Spends lease lease'
  book : t.leases.get =
    Function.update s.leases.get lease.leaseId (some lease')
  records : Records s t lease.leaseId permitId

/-- What holds after every authorization that returns. -/
structure Authorized
    (env : LeaseEnv) (s t : LeaseWorld) (request : ActionRequest)
    (answer : AuthorizedAction) : Prop where
  fresh : t.Fresh env.host
  policies : t.policies = s.policies
  receipts : ∃ receipt, t.receipts = s.receipts ++ [receipt]
  seen : t.seenRequestIds = request.requestId :: s.seenRequestIds
  kept : PermitsKept s t
  answers : answer.decision.requestId = request.requestId
  effect : Refused s t answer ∨
    ∃ lease lease' permitId, Allowed s t request answer lease lease' permitId

/-- What holds after an authorization that raises. -/
structure AuthorizeRaised (host : Host) (s t : LeaseWorld) : Prop where
  fresh : t.Fresh host
  untouched : Untouched s t
  seen : s.seenRequestIds ⊆ t.seenRequestIds

theorem Untouched.fresh (h : Untouched s t) (hs : s.Fresh env.host) :
    t.Fresh env.host :=
  hs.mono (by rw [h.leases]) h.uuids

theorem Untouched.minted_eq (h : Untouched s t) (leaseId : String) :
    t.minted leaseId = s.minted leaseId := by
  rw [LeaseWorld.minted, LeaseWorld.minted, h.minted]

/-- The specification of `bindPermit` from a state in which a lease was found
to allow the request. -/
theorem bindPermit_ends
    (hs : s.Fresh env.host) (request : ActionRequest)
    (lease : Option CapabilityLease) (decision : Decision)
    (hallowed : decision.outcome = .allow →
      ∃ l, lease = some l ∧ s.leases.get l.leaseId = some l ∧
        l.state = .active ∧ ∀ n, l.remainingUses = some n → 0 < n) :
    Ends (bindPermit env request lease decision) s
      (fun result t => t.Fresh env.host ∧ t.policies = s.policies ∧
        t.receipts = s.receipts ∧ t.seenRequestIds = s.seenRequestIds ∧
        PermitsKept s t ∧ result.1.requestId = decision.requestId ∧
        result.1.leaseId = decision.leaseId ∧
        ((result.1.outcome ≠ .allow ∧ t.leases = s.leases ∧
            t.mintedPermits = s.mintedPermits) ∨
          ∃ l l' permitId, decision.outcome = .allow ∧
            result.1.outcome = .allow ∧ lease = some l ∧
            result.2 = some permitId ∧ Spends l l' ∧
            t.leases.get =
              Function.update s.leases.get l.leaseId (some l') ∧
            Records s t l.leaseId permitId))
      (fun _ t => t.Fresh env.host ∧ Untouched s t ∧
        t.seenRequestIds = s.seenRequestIds) := by
  unfold bindPermit
  split
  next l hallow =>
    obtain ⟨l', hl, hget, hactive, huses⟩ := hallowed hallow
    obtain rfl := Option.some.inj hl
    apply ends_bind
    refine ends_mono (mintExecutionPermit_ends s request l decision) ?_ ?_
    · rintro permitId u ⟨hstage, hnone, hsome⟩
      have hu : u.Fresh env.host := hs.mono (by rw [hstage.leases]) hstage.uuids
      cases permitId with
      | none =>
          refine ends_pure ⟨hu, hstage.policies, hstage.receipts, hstage.seen,
            hstage.kept, rfl, rfl, Or.inl ⟨?_, hstage.leases, hnone rfl⟩⟩
          intro hdenied
          cases hdenied
      | some permitId =>
          obtain ⟨hknown, hminted⟩ := hsome permitId rfl
          have hgetu : u.leases.get l.leaseId = some l := by
            rw [hstage.leases]
            exact hget
          apply ends_bind
          refine ends_mono (consume_ends hu hgetu hactive huses) ?_
            (fun _ _ h => h.elim)
          rintro _ t ⟨honly, ht, l', hspends, hbook⟩
          rw [hstage.leases] at hbook
          have hspares := honly.spares
          exact ends_pure ⟨ht, honly.policies.trans hstage.policies,
            honly.receipts.trans hstage.receipts,
            hspares.seen.trans hstage.seen, hstage.kept.trans hspares.kept,
            rfl, rfl, Or.inr ⟨l, l', permitId, hallow, hallow, rfl, rfl,
              hspends, hbook, hspares.kept.known _ hknown,
              hspares.minted.trans hminted⟩⟩
    · rintro e u ⟨huntouched, hseen⟩
      exact ⟨huntouched.fresh hs, huntouched, hseen⟩
  next hother =>
    refine ends_pure ⟨hs, rfl, rfl, rfl, permitsKept_of_store rfl, rfl, rfl,
      Or.inl ⟨?_, rfl, rfl⟩⟩
    intro hallow
    obtain ⟨l, hl, -⟩ := hallowed hallow
    exact hother l hallow hl

theorem Untouched.trans
    {u : LeaseWorld} (hst : Untouched s t) (htu : Untouched t u) :
    Untouched s u where
  leases := htu.leases.trans hst.leases
  receipts := htu.receipts.trans hst.receipts
  policies := htu.policies.trans hst.policies
  minted := htu.minted.trans hst.minted
  store := htu.store.trans hst.store
  uuids := hst.uuids.trans htu.uuids

theorem authorize_ends (hs : s.Fresh env.host) (request : ActionRequest) :
    Ends (authorize env request) s
      (fun answer t => Authorized env s t request answer)
      (fun _ t => AuthorizeRaised env.host s t) := by
  unfold authorize
  apply ends_bind
  refine ends_mono (decideRequest_ends s request) ?_ ?_
  · rintro ⟨lease, decided, vetoes⟩ u ⟨huntouched, hseen, hrequest, hlease,
      hallowed⟩
    dsimp only at hrequest hlease hallowed
    have hu := huntouched.fresh hs
    apply ends_bind
    refine ends_mono (bindPermit_ends hu request lease decided ?_) ?_ ?_
    · intro hallow
      obtain ⟨l, hl, hby⟩ := hallowed hallow
      refine ⟨l, hl, ?_, hby.active, hby.uses⟩
      rw [huntouched.leases]
      exact hby.filed
    · rintro ⟨decision, permitId⟩ v ⟨hv, hpolicies, hreceipts, hseenv, hkept,
        hrequestId, hleaseId, heffect⟩
      dsimp only at hrequestId hleaseId heffect
      apply ends_bind
      apply ends_fileReceipt
      intro receipt
      apply ends_pure
      refine ⟨hv.mono rfl (Nat.le_succ _), hpolicies.trans huntouched.policies,
        ⟨receipt, ?_⟩, hseenv.trans hseen, ?_, hrequestId.trans hrequest, ?_⟩
      · exact congrArg (· ++ [receipt]) (hreceipts.trans huntouched.receipts)
      · have hall := (permitsKept_of_store huntouched.store).trans hkept
        exact ⟨hall.revoked, hall.consumed, hall.unrevoked, hall.known⟩
      · rcases heffect with ⟨hdenied, hleases, hminted⟩ | ⟨l, l', id, hallow,
          houtcome, hl, hpermit, hspends, hbook, hknown, hminted⟩
        · exact Or.inl ⟨hdenied, hleases.trans huntouched.leases,
            hminted.trans huntouched.minted⟩
        · obtain ⟨found, hfound, hby⟩ := hallowed hallow
          obtain rfl := Option.some.inj (hfound.symm.trans hl)
          refine Or.inr ⟨found, l', id, houtcome, ?_, hpermit, hby, hspends,
            ?_, hknown, ?_⟩
          · rw [hleaseId, hlease, hl]
            rfl
          · rw [← huntouched.leases]
            exact hbook
          · rw [← huntouched.minted, ← huntouched.minted_eq]
            exact hminted
    · rintro e v ⟨hv, hrest, hseenv⟩
      refine ⟨hv, huntouched.trans hrest, ?_⟩
      rw [hseenv, hseen]
      exact List.subset_cons_self _ _
  · rintro e u ⟨huntouched, hseen⟩
    exact ⟨huntouched.fresh hs, huntouched, hseen⟩

end Hydrogenuine.Lease
