import Hydrogenuine.Lease.Crossing
import Hydrogenuine.Lease.Delegation
import Hydrogenuine.Lease.Invalidation

/-!
# What the operations do to the leases

Every operation is related to the abstract book of leases: leases enter it
under fresh ids, move along the transition table and spend uses.  `transition`
is specified once; from it every operation except `authorize` is shown to be
`Quietly`: it keeps the drawn ids fresh, enters only the leases it may create,
and otherwise only moves leases.
-/

namespace Hydrogenuine.Lease

open Support Hydrogenuine.Core Gpp

/-! ## One transition -/

/-- Only leases, clock readings and drawn ids differ. -/
def OnlyLeases (s t : LeaseWorld) : Prop :=
  t = { s with leases := t.leases, ticks := t.ticks, uuids := t.uuids }

/-- What `transition` does to one lease when it returns. -/
def TransitionEffect
    (s t : LeaseWorld) (leaseId : String) (event : LeaseEvent) : Prop :=
  (t.leases = s.leases ∧
      ∀ lease, s.leases.get leaseId = some lease →
        lease.state.isTerminal = true) ∨
    ∃ lease state eventId, s.leases.get leaseId = some lease ∧
      transitions lease.state event = some state ∧
      t.leases.get = Function.update s.leases.get leaseId
        (some (lease.advance state eventId))

variable {env : LeaseEnv} {s t : LeaseWorld}

theorem OnlyLeases.trans
    {u : LeaseWorld} (hst : OnlyLeases s t) (htu : OnlyLeases t u) :
    OnlyLeases s u := by
  rw [OnlyLeases] at hst htu ⊢
  rw [htu, hst]

theorem fresh_advance
    (hs : s.Fresh env.host) {leaseId : String} {lease : CapabilityLease}
    (hget : s.leases.get leaseId = some lease) {tag : String}
    (htag : ':' ∉ tag.toList) (state : LeaseState)
    (hleases : t.leases.get = Function.update s.leases.get leaseId
      (some (lease.advance state
        (eventIdOf leaseId tag (env.host.uuidHex s.uuids)))))
    (huuids : t.uuids = s.uuids + 1) : t.Fresh env.host := by
  have hid := LeaseStore.leaseId_of_get hget
  subst hid
  have hbound : s.uuids < t.uuids := by omega
  refine hs.put (lease.advance state _) hleases hbound.le hbound (Or.inl ?_) ?_
  · change s.leases.get lease.leaseId ≠ none
    rw [hget]
    exact Option.some_ne_none _
  · intro k hk tag' htag' hmem
    rcases List.mem_append.mp hmem with hold | hnew
    · exact hs.eventIds _ _ hget k (by omega) tag' htag' hold
    · rw [List.mem_singleton] at hnew
      have hdigits := (eventIdOf_inj htag' htag hnew).2
      have hkey := env.host.uuidHex_injective hdigits
      omega

/-- The specification of `transition`: it returns and moves the lease along the
table, or leaves a missing or terminal lease alone, or raises on an event the
table does not have. -/
theorem transition_ends
    (hs : s.Fresh env.host) (leaseId : String) (event : LeaseEvent)
    (reasonCode detail : String) :
    Ends (transition env leaseId event reasonCode detail) s
      (fun _ t => OnlyLeases s t ∧ t.Fresh env.host ∧
        TransitionEffect s t leaseId event)
      (fun _ t => OnlyLeases s t ∧ t.Fresh env.host ∧ t.leases = s.leases ∧
        ∃ lease, s.leases.get leaseId = some lease ∧
          transitions lease.state event = none) := by
  unfold transition
  apply ends_bind
  apply ends_get
  cases hget : s.leases.get leaseId with
  | none =>
      apply ends_pure
      exact ⟨rfl, hs, Or.inl ⟨rfl, by intro lease hl; rw [hget] at hl; cases hl⟩⟩
  | some lease =>
      dsimp only
      split_ifs with hterminal
      · apply ends_pure
        refine ⟨rfl, hs, Or.inl ⟨rfl, ?_⟩⟩
        intro other hother
        rw [hget, Option.some.injEq] at hother
        rw [← hother]
        exact hterminal
      · apply ends_bind
        apply ends_readClock
        apply ends_bind
        apply ends_drawUuid
        apply ends_bind
        have hnew := hs.eventIds leaseId lease hget s.uuids le_rfl event.text
          event.colon_not_mem_text
        cases hnext : transitions lease.state event with
        | none =>
            apply ends_raising
            · intro pair hpair
              simp only [applyTransition, if_neg hnew, hnext] at hpair
              cases hpair
            · intro e _
              exact ⟨rfl, hs.mono rfl (Nat.le_succ _), rfl, lease, rfl, hnext⟩
        | some state =>
            apply ends_raising
            · intro pair hpair
              simp only [applyTransition, if_neg hnew, hnext] at hpair
              cases hpair
              apply ends_putLease
              have hid := LeaseStore.leaseId_of_get hget
              have hleases := LeaseStore.get_put s.leases
                (lease.advance state (eventIdOf leaseId event.text
                  (env.host.uuidHex s.uuids)))
                (some ⟨eventIdOf leaseId event.text (env.host.uuidHex s.uuids),
                  lease.leaseId, event, lease.state, state, reasonCode,
                  (env.clock s.ticks).1, detail⟩)
              have hkey : (lease.advance state (eventIdOf leaseId event.text
                  (env.host.uuidHex s.uuids))).leaseId = leaseId := hid
              rw [hkey] at hleases
              exact ⟨rfl, fresh_advance hs hget event.colon_not_mem_text state
                hleases rfl, Or.inr ⟨lease, state, _, hget, hnext, hleases⟩⟩
            · intro e he
              simp only [applyTransition, if_neg hnew, hnext] at he
              cases he

theorem transition_moves
    (hs : s.Fresh env.host) {leaseId : String} {lease : CapabilityLease}
    {event : LeaseEvent} {state : LeaseState}
    (hget : s.leases.get leaseId = some lease)
    (hnext : transitions lease.state event = some state)
    (reasonCode detail : String) :
    Ends (transition env leaseId event reasonCode detail) s
      (fun _ t => OnlyLeases s t ∧ t.Fresh env.host ∧
        ∃ eventId, t.leases.get = Function.update s.leases.get leaseId
          (some (lease.advance state eventId)))
      (fun _ _ => False) := by
  apply ends_mono (transition_ends hs leaseId event reasonCode detail)
  · rintro _ t ⟨honly, ht, ⟨-, hterminal⟩ | ⟨filed, next, eventId, hfiled,
      hedge, hbook⟩⟩
    · rw [transitions_of_isTerminal (hterminal lease hget)] at hnext
      cases hnext
    · obtain rfl := Option.some.inj (hfiled.symm.trans hget)
      obtain rfl := Option.some.inj (hedge.symm.trans hnext)
      exact ⟨honly, ht, eventId, hbook⟩
  · rintro _ t ⟨-, -, -, filed, hfiled, hnone⟩
    obtain rfl := Option.some.inj (hfiled.symm.trans hget)
    rw [hnext] at hnone
    cases hnone

/-! ## Quiet operations -/

namespace LeaseWorld

def spent (s : LeaseWorld) (permitId : String) : Bool :=
  s.gpp.store.isRevoked permitId || s.gpp.store.isConsumed permitId

def known (s : LeaseWorld) (permitId : String) : Bool :=
  (s.gpp.store.get permitId).isSome

end LeaseWorld

/-- The records about permits are never erased, and no revoked permit is
consumed. -/
structure PermitsKept (s t : LeaseWorld) : Prop where
  revoked : ∀ permitId, s.gpp.store.isRevoked permitId = true →
    t.gpp.store.isRevoked permitId = true
  consumed : ∀ permitId, s.gpp.store.isConsumed permitId = true →
    t.gpp.store.isConsumed permitId = true
  unrevoked : ∀ permitId, t.gpp.store.isConsumed permitId = true →
    s.gpp.store.isConsumed permitId = true ∨
      s.gpp.store.isRevoked permitId = false
  known : ∀ permitId, s.known permitId = true → t.known permitId = true

theorem PermitsKept.spent
    (h : PermitsKept s t) {permitId : String}
    (hspent : s.spent permitId = true) : t.spent permitId = true := by
  rw [LeaseWorld.spent, Bool.or_eq_true] at hspent ⊢
  exact hspent.imp (h.revoked permitId) (h.consumed permitId)

theorem permitsKept_of_store
    (hstore : t.gpp.store = s.gpp.store) : PermitsKept s t := by
  refine ⟨?_, ?_, ?_, ?_⟩
  · intro permitId hrevoked
    rw [hstore]
    exact hrevoked
  · intro permitId hconsumed
    rw [hstore]
    exact hconsumed
  · intro permitId hconsumed
    rw [hstore] at hconsumed
    exact Or.inl hconsumed
  · intro permitId hknown
    rw [LeaseWorld.known, hstore]
    exact hknown

theorem permitsKept_of_revoke
    {revocation : PermitRevocation}
    (hstore : t.gpp.store = (s.gpp.store.revoke env.host revocation).1) :
    PermitsKept s t := by
  refine ⟨?_, ?_, ?_, ?_⟩
  · intro permitId hrevoked
    rw [hstore, PermitStore.isRevoked_revoke, hrevoked, Bool.true_or]
  · intro permitId hconsumed
    rw [hstore, PermitStore.isConsumed_revoke]
    exact hconsumed
  · intro permitId hconsumed
    rw [hstore, PermitStore.isConsumed_revoke] at hconsumed
    exact Or.inl hconsumed
  · intro permitId hknown
    rw [LeaseWorld.known, hstore]
    exact PermitStore.isSome_get_revoke hknown

theorem permitsKept_of_consume
    {permitId now consumedBy handoffRef : String}
    (hstore : t.gpp.store =
      (s.gpp.store.consume env.host permitId now consumedBy handoffRef).1) :
    PermitsKept s t := by
  refine ⟨?_, ?_, ?_, ?_⟩
  · intro other hrevoked
    rw [hstore, PermitStore.isRevoked_consume]
    exact hrevoked
  · intro other hconsumed
    rw [hstore, PermitStore.isConsumed_consume, hconsumed, Bool.true_or]
  · intro other hconsumed
    rw [hstore, PermitStore.isConsumed_consume, Bool.or_eq_true,
      Bool.and_eq_true, decide_eq_true_eq] at hconsumed
    rcases hconsumed with hbefore | ⟨hok, rfl⟩
    · exact Or.inl hbefore
    · obtain ⟨_, -, hlive, -⟩ := (PermitStore.consume_ok_iff ..).mp hok
      exact Or.inr hlive
  · intro other hknown
    rw [LeaseWorld.known, hstore, PermitStore.get_consume]
    exact hknown

theorem PermitsKept.trans
    {u : LeaseWorld} (hst : PermitsKept s t) (htu : PermitsKept t u) :
    PermitsKept s u where
  revoked permitId hrevoked := htu.revoked permitId (hst.revoked permitId hrevoked)
  consumed permitId hconsumed :=
    htu.consumed permitId (hst.consumed permitId hconsumed)
  unrevoked permitId hconsumed := by
    rcases htu.unrevoked permitId hconsumed with hbefore | hlive
    · exact hst.unrevoked permitId hbefore
    · right
      by_contra hrevoked
      rw [Bool.not_eq_false] at hrevoked
      rw [hst.revoked permitId hrevoked] at hlive
      cases hlive
  known permitId hknown := htu.known permitId (hst.known permitId hknown)

/-- No permit is minted and no request is recorded. -/
structure Spares (s t : LeaseWorld) : Prop where
  minted : t.mintedPermits = s.mintedPermits
  seen : t.seenRequestIds = s.seenRequestIds
  kept : PermitsKept s t

theorem Spares.trans
    {u : LeaseWorld} (hst : Spares s t) (htu : Spares t u) : Spares s u where
  minted := htu.minted.trans hst.minted
  seen := htu.seen.trans hst.seen
  kept := hst.kept.trans htu.kept

theorem spares_of_store
    (hminted : t.mintedPermits = s.mintedPermits)
    (hseen : t.seenRequestIds = s.seenRequestIds)
    (hstore : t.gpp.store = s.gpp.store) : Spares s t :=
  ⟨hminted, hseen, permitsKept_of_store hstore⟩

theorem OnlyLeases.spares (h : OnlyLeases s t) : Spares s t := by
  rw [OnlyLeases] at h
  rw [h]
  exact spares_of_store rfl rfl rfl

theorem OnlyLeases.policies (h : OnlyLeases s t) : t.policies = s.policies := by
  rw [OnlyLeases] at h
  rw [h]

theorem OnlyLeases.situation (h : OnlyLeases s t) :
    t.situation = s.situation := by
  rw [OnlyLeases] at h
  rw [h]

theorem OnlyLeases.receipts (h : OnlyLeases s t) : t.receipts = s.receipts := by
  rw [OnlyLeases] at h
  rw [h]

/-- Nothing is minted or recorded; drawn ids stay fresh; the only leases that
enter satisfy `Opens`, and filed leases only move. -/
structure QuietEffect
    (host : Host) (Opens : CapabilityLease → Prop) (Events : LeaseEvent → Prop)
    (s t : LeaseWorld) : Prop where
  spares : Spares s t
  fresh : t.Fresh host
  book : BookSteps Opens (MovesBy Events) s.leases.get t.leases.get

/-- A call that leads to a quiet effect and keeps the policies. -/
def Quietly
    (host : Host) (Opens : CapabilityLease → Prop) (Events : LeaseEvent → Prop)
    (s t : LeaseWorld) : Prop :=
  s.Fresh host → QuietEffect host Opens Events s t ∧ t.policies = s.policies

variable {Opens : CapabilityLease → Prop} {Events : LeaseEvent → Prop}

instance (host : Host) : Std.Refl (Quietly host Opens Events) where
  refl _ hs :=
    ⟨⟨spares_of_store rfl rfl rfl, hs, BookSteps.refl _⟩, rfl⟩

instance (host : Host) : IsTrans LeaseWorld (Quietly host Opens Events) where
  trans _ _ _ hst htu hs := by
    obtain ⟨⟨hspares, ht, hbook⟩, hpolicies⟩ := hst hs
    obtain ⟨⟨hspares', hu, hbook'⟩, hpolicies'⟩ := htu ht
    exact ⟨⟨hspares.trans hspares', hu, hbook.trans hbook'⟩,
      hpolicies'.trans hpolicies⟩

theorem quietly_of_same
    {host : Host} (hspares : Spares s t) (hpolicies : t.policies = s.policies)
    (hleases : t.leases = s.leases) (huuids : s.uuids ≤ t.uuids) :
    Quietly host Opens Events s t := by
  intro hs
  refine ⟨⟨hspares, hs.mono (by rw [hleases]) huuids, ?_⟩, hpolicies⟩
  rw [hleases]
  exact BookSteps.refl _

theorem OnlyLeases.quiet
    (h : OnlyLeases s t) (ht : t.Fresh env.host)
    (hbook : BookSteps Opens (MovesBy Events) s.leases.get t.leases.get) :
    QuietEffect env.host Opens Events s t ∧ t.policies = s.policies :=
  ⟨⟨h.spares, ht, hbook⟩, h.policies⟩

theorem along_readClock : Along (Quietly env.host Opens Events) (readClock env) := by
  intro s
  exact ends_readClock
    (quietly_of_same (spares_of_store rfl rfl rfl) rfl rfl le_rfl)

theorem along_fileReceipt (fields : ReceiptFields) :
    Along (Quietly env.host Opens Events) (fileReceipt env fields) := by
  intro s
  apply ends_fileReceipt
  intro receipt
  exact quietly_of_same (spares_of_store rfl rfl rfl) rfl rfl (Nat.le_succ _)

theorem quietly_transition
    {event : LeaseEvent} (hevent : Events event)
    (leaseId reasonCode detail : String) :
    Along (Quietly env.host Opens Events)
      (transition env leaseId event reasonCode detail) := by
  apply along_of_pre
  intro s hs
  apply ends_mono (transition_ends hs leaseId event reasonCode detail)
  · rintro _ t ⟨honly, ht, ⟨hsame, -⟩ | ⟨lease, state, eventId, hget, hnext,
      hput⟩⟩
    · apply honly.quiet ht
      rw [hsame]
      exact BookSteps.refl _
    · apply honly.quiet ht
      rw [hput]
      exact BookSteps.single (BookStep.moved leaseId lease _ hget
        ⟨event, state, eventId, hevent, hnext, rfl⟩)
  · rintro _ t ⟨honly, ht, hsame, -⟩
    apply honly.quiet ht
    rw [hsame]
    exact BookSteps.refl _

theorem quietly_suspendLease
    (hsuspend : Events .suspend) (leaseId reasonCode : String) :
    Along (Quietly env.host Opens Events)
      (suspendLease env leaseId reasonCode) :=
  quietly_transition hsuspend leaseId reasonCode ""

theorem quietly_resumeLease
    (hresume : Events .resume) (hexpire : Events .expire)
    (leaseId reasonCode : String) :
    Along (Quietly env.host Opens Events)
      (resumeLease env leaseId reasonCode) := by
  apply along_bind along_readClock
  intro now
  apply along_bind along_get
  intro s
  split
  · exact along_pure _
  · split_ifs
    · exact quietly_transition hexpire _ _ _
    · exact quietly_transition hresume _ _ _

theorem quietly_expireLease (hexpire : Events .expire) (leaseId : String) :
    Along (Quietly env.host Opens Events) (expireLease env leaseId) :=
  quietly_transition hexpire leaseId _ _

theorem quietly_revokePermit (permitId nowWall reasonCode revokerRef : String) :
    Along (Quietly env.host Opens Events)
      (revokePermit env permitId nowWall reasonCode revokerRef) := by
  apply along_modify
  intro s
  refine quietly_of_same ⟨rfl, rfl, ?_⟩ rfl rfl le_rfl
  exact permitsKept_of_revoke rfl

theorem quietly_revokeLease
    (hrevoke : Events .revoke) (leaseId revokerRef reasonCode : String) :
    Along (Quietly env.host Opens Events)
      (revokeLease env leaseId revokerRef reasonCode) := by
  apply along_bind (quietly_transition hrevoke _ _ _)
  intro _
  apply along_bind along_readClock
  intro now
  apply along_bind along_get
  intro s
  apply along_bind
  · apply along_forM
    intro permitId _
    exact quietly_revokePermit _ _ _ _
  · intro _
    apply along_bind (along_fileReceipt _)
    intro _
    exact along_pure _

theorem quietly_revokeAll (hrevoke : Events .revoke) (revokerRef : String) :
    Along (Quietly env.host Opens Events) (revokeAll env revokerRef) := by
  apply along_bind along_get
  intro s
  apply along_bind
  · apply along_forM
    intro leaseId _
    exact quietly_revokeLease hrevoke _ _ _
  · intro _
    exact along_pure _

theorem quietly_checkObligations
    (lease : CapabilityLease) (policy : CanonicalPolicy) (fact : SituationFact)
    (nowWall : String) :
    Along (Quietly env.host Opens Events)
      (checkObligations env lease policy fact nowWall) := by
  unfold checkObligations
  split_ifs
  · apply along_modify
    intro s
    exact quietly_of_same (spares_of_store rfl rfl rfl) rfl rfl le_rfl
  · exact along_pure _

theorem quietly_suspendFirst
    (hsuspend : Events .suspend) (fact : SituationFact)
    (lease : CapabilityLease) :
    Along (Quietly env.host Opens Events) (suspendFirst env fact lease) := by
  unfold suspendFirst
  split_ifs
  · exact quietly_suspendLease hsuspend _ _
  · exact along_pure _

theorem quietly_resumeWhen
    (hresume : Events .resume) (hexpire : Events .expire) (ok : Bool)
    (fact : SituationFact) (lease : CapabilityLease) :
    Along (Quietly env.host Opens Events) (resumeWhen env ok fact lease) := by
  unfold resumeWhen
  split_ifs
  · exact quietly_resumeLease hresume hexpire _ _
  · exact along_pure _

theorem quietly_reviewLease
    (hsuspend : Events .suspend) (hresume : Events .resume)
    (hexpire : Events .expire) (fact : SituationFact) (nowWall : String)
    (lease : CapabilityLease) :
    Along (Quietly env.host Opens Events)
      (reviewLease env fact nowWall lease) := by
  unfold reviewLease
  split_ifs
  · apply along_bind along_get
    intro s
    split
    · exact along_pure _
    · split_ifs
      · apply along_bind (quietly_suspendFirst hsuspend _ _)
        intro _
        apply along_bind along_get
        intro s
        apply along_bind (along_raising _)
        intro ok
        apply along_bind (quietly_resumeWhen hresume hexpire _ _ _)
        intro _
        exact quietly_checkObligations _ _ _ _
      · exact quietly_checkObligations _ _ _ _
  · exact along_pure _

theorem quietly_putFact
    (hsuspend : Events .suspend) (hresume : Events .resume)
    (hexpire : Events .expire) (fact : SituationFact) :
    Along (Quietly env.host Opens Events) (putFact env fact) := by
  apply along_bind
  · apply along_modify
    intro s
    exact quietly_of_same (spares_of_store rfl rfl rfl) rfl rfl le_rfl
  · intro _
    split_ifs
    · apply along_bind along_readClock
      intro now
      apply along_bind along_get
      intro s
      apply along_forM
      intro lease _
      exact quietly_reviewLease hsuspend hresume hexpire _ _ _
    · exact along_pure _

/-- The specification of the consuming phase: it never raises, it is quiet, and
it succeeds only on a permit that was not spent. -/
theorem verifyAndConsume_ends
    (s : LeaseWorld) (permitId actionType nowWall : String) :
    Ends (verifyAndConsume env permitId actionType nowWall) s
      (fun result t => Quietly env.host Opens Events s t ∧
        (result.1 = true → s.spent permitId = false))
      (fun _ t => Quietly env.host Opens Events s t) := by
  unfold verifyAndConsume
  apply ends_bind
  apply ends_get
  have hsame : Quietly env.host Opens Events s s := Std.Refl.refl s
  split
  · exact ends_pure ⟨hsame, by simp⟩
  next permit hget =>
    dsimp only
    have hconsumed : Quietly env.host Opens Events s { s with
        gpp := { s.gpp with
          store := (s.gpp.store.consume env.host permitId nowWall
            "lease_crossing" "").1 } } :=
      quietly_of_same ⟨rfl, rfl, permitsKept_of_consume rfl⟩ rfl rfl le_rfl
    split_ifs with hverified hok
    · apply ends_bind
      apply ends_modify
      refine ends_pure ⟨hconsumed, fun _ => ?_⟩
      obtain ⟨_, -, hlive, -, -, hunused⟩ :=
        (PermitStore.consume_ok_iff ..).mp hok
      rw [LeaseWorld.spent, hlive, hunused]
      rfl
    · apply ends_bind
      apply ends_modify
      exact ends_pure ⟨hconsumed, by simp⟩
    · exact ends_pure ⟨hsame, fun htrue => absurd htrue hverified⟩

theorem quietly_verifyAndConsume (permitId actionType nowWall : String) :
    Along (Quietly env.host Opens Events)
      (verifyAndConsume env permitId actionType nowWall) := by
  intro s
  exact ends_mono (verifyAndConsume_ends s permitId actionType nowWall)
    (fun _ _ h => h.1) (fun _ _ h => h)

theorem quietly_dispatch
    (authorized : AuthorizedAction) (request : ActionRequest) :
    Along (Quietly env.host Opens Events) (dispatch env authorized request) := by
  unfold dispatch
  dsimp only
  split
  · apply along_bind along_readClock
    intro now
    apply along_bind (quietly_verifyAndConsume _ _ _)
    intro verified
    split_ifs
    · apply along_bind along_get
      intro s
      split
      · apply along_bind (along_fileReceipt _)
        intro _
        exact along_pure _
      · apply along_bind (along_fileReceipt _)
        intro _
        exact along_pure _
    · apply along_bind (along_fileReceipt _)
      intro _
      exact along_pure _
  · exact along_pure _

end Hydrogenuine.Lease
