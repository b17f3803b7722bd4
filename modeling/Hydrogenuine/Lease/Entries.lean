import Mathlib.Data.List.Dedup
import Hydrogenuine.Lease.Effects

/-!
# How leases enter

`mint_lease` and `delegate_lease` are the two operations that file a lease under
an id that was never used.  Their specifications say which record is entered
and that everything else stays, apart from the lease that a mint supersedes.
`revoke_delegations_of` revokes exactly the live children it lists.
-/

namespace Hydrogenuine.Lease

open Support Hydrogenuine.Core Gpp

variable {env : LeaseEnv} {s t : LeaseWorld}

/-! ## Opening a draft -/

def CapabilityLease.opened (draft : CapabilityLease) : CapabilityLease :=
  { draft with
    state := .active
    appliedEventIds :=
      [draft.leaseId ++ ":submit", draft.leaseId ++ ":confirm"] }

theorem openLease_eq
    {draft : CapabilityLease} (hstate : draft.state = .draft)
    (hevents : draft.appliedEventIds = [])
    (submitReason confirmReason nowWall detail : String) :
    ∃ first second,
      openLease draft submitReason confirmReason nowWall detail =
        .ok (draft.opened, first, second) := by
  have hne : draft.leaseId ++ ":confirm" ≠ draft.leaseId ++ ":submit" := by
    intro heq
    have hlists := congrArg String.toList heq
    rw [String.toList_append, String.toList_append,
      List.append_cancel_left_eq] at hlists
    exact absurd hlists (by decide)
  simp [openLease, applyTransition, hstate, hevents, transitions,
    CapabilityLease.advance, CapabilityLease.opened, hne]

theorem fresh_opened
    (hs : s.Fresh env.host) {draft : CapabilityLease} {bound : ℕ}
    (hid : draft.leaseId = leaseIdOf (env.host.uuidHex bound))
    (hleases : t.leases.get =
      Function.update s.leases.get draft.leaseId (some draft.opened))
    (huuids : s.uuids ≤ t.uuids) (hbound : bound < t.uuids) :
    t.Fresh env.host := by
  refine hs.put draft.opened hleases huuids hbound (Or.inr hid) ?_
  intro k _ tag _ hmem
  simp only [CapabilityLease.opened, List.mem_cons, List.not_mem_nil,
    or_false] at hmem
  rcases hmem with hmem | hmem
  · exact eventIdOf_ne_opening (by decide) hmem
  · exact eventIdOf_ne_opening (by decide) hmem

theorem get_put_put
    (store : LeaseStore) (lease : CapabilityLease)
    (first second : Option LifecycleEvent) :
    ((store.put lease first).put lease second).get =
      Function.update store.get lease.leaseId (some lease) := by
  rw [LeaseStore.get_put, LeaseStore.get_put, Function.update_idem]

/-! ## Minting -/

/-- What `mint_lease` makes of a policy. -/
structure MintedFrom
    (env : LeaseEnv) (policy : CanonicalPolicy) (lease : CapabilityLease) :
    Prop where
  state : lease.state = .active
  uses : lease.remainingUses = policy.useLimit
  parent : lease.parentLeaseId = none
  hash : lease.policyHash = policy.canonicalPolicyHash env.host

/-- At most the lease to be superseded changes, and only to superseded. -/
def SupersedeEffect
    (book book' : String → Option CapabilityLease)
    (supersedesLeaseId : Option String) : Prop :=
  book' = book ∨
    ∃ old lease eventId, supersedesLeaseId = some old ∧
      book old = some lease ∧
      transitions lease.state .supersede = some .superseded ∧
      book' = Function.update book old
        (some (lease.advance .superseded eventId))

/-- A lease has been entered from the policy, and its predecessor ended. -/
structure MintEffect
    (env : LeaseEnv) (s t : LeaseWorld) (policy : CanonicalPolicy)
    (supersedesLeaseId : Option String) (lease : CapabilityLease) : Prop where
  policies : t.policies =
    s.policies.set (policy.canonicalPolicyHash env.host) policy
  situation : t.situation = s.situation
  unused : s.leases.get lease.leaseId = none
  minted : MintedFrom env policy lease
  book : SupersedeEffect
    (Function.update s.leases.get lease.leaseId (some lease)) t.leases.get
    supersedesLeaseId

theorem supersede_next
    {state next : LeaseState} (h : transitions state .supersede = some next) :
    next = .superseded := by
  cases state <;> cases h <;> rfl

theorem supersedeOld_ends
    (hs : s.Fresh env.host) (supersedesLeaseId : Option String)
    (leaseId : String) :
    Ends (supersedeOld env supersedesLeaseId leaseId) s
      (fun _ t => OnlyLeases s t ∧ t.Fresh env.host ∧
        SupersedeEffect s.leases.get t.leases.get supersedesLeaseId)
      (fun _ t => OnlyLeases s t ∧ t.Fresh env.host ∧
        SupersedeEffect s.leases.get t.leases.get supersedesLeaseId ∧
        supersedesLeaseId ≠ none) := by
  unfold supersedeOld
  split
  next old =>
    split_ifs
    · exact ends_pure ⟨rfl, hs, Or.inl rfl⟩
    · apply ends_mono (transition_ends hs old .supersede _ _)
      · rintro _ t ⟨honly, ht, ⟨hsame, -⟩ | ⟨lease, next, eventId, hget, hnext,
          hput⟩⟩
        · exact ⟨honly, ht, Or.inl (by rw [hsame])⟩
        · obtain rfl := supersede_next hnext
          exact ⟨honly, ht, Or.inr ⟨old, lease, eventId, rfl, hget, hnext, hput⟩⟩
      · rintro _ t ⟨honly, ht, hsame, -⟩
        exact ⟨honly, ht, Or.inl (by rw [hsame]), by simp⟩
  · exact ends_pure ⟨rfl, hs, Or.inl rfl⟩

/-- The operator confirmed this policy and saw its summary. -/
structure Confirms
    (host : Host) (policy : CanonicalPolicy)
    (confirmation : OperatorConfirmation) : Prop where
  hash : confirmation.policyHash = policy.canonicalPolicyHash host
  operator : confirmation.operatorId = policy.issuerOperatorId
  summary : confirmation.displaySummaryShown = policy.displaySummary

/-- The specification of `mint_lease`: it raises before anything is entered, or
enters a lease and then supersedes, and may still raise on a predecessor that
cannot be superseded.  A confirmed policy that has a subject and supersedes
nothing is minted. -/
theorem mintLease_ends
    (hs : s.Fresh env.host) (policy : CanonicalPolicy)
    (confirmation : OperatorConfirmation) (supersedesLeaseId : Option String) :
    Ends (mintLease env policy confirmation supersedesLeaseId) s
      (fun lease t => t.Fresh env.host ∧ Spares s t ∧
        MintEffect env s t policy supersedesLeaseId lease)
      (fun _ t => t.Fresh env.host ∧ Spares s t ∧
        ((t.leases = s.leases ∧ t.policies = s.policies) ∨
          ∃ lease, MintEffect env s t policy supersedesLeaseId lease) ∧
        ¬ (Confirms env.host policy confirmation ∧ policy.subjects ≠ [] ∧
          supersedesLeaseId = none)) := by
  unfold mintLease
  apply ends_bind
  apply ends_readClock
  dsimp only
  split_ifs with hhash hoperator hsummary
  · exact ends_throw ⟨hs.mono rfl le_rfl, spares_of_store rfl rfl rfl,
      Or.inl ⟨rfl, rfl⟩, fun h => hhash h.1.hash⟩
  · exact ends_throw ⟨hs.mono rfl le_rfl, spares_of_store rfl rfl rfl,
      Or.inl ⟨rfl, rfl⟩, fun h => hoperator h.1.operator⟩
  · exact ends_throw ⟨hs.mono rfl le_rfl, spares_of_store rfl rfl rfl,
      Or.inl ⟨rfl, rfl⟩, fun h => hsummary h.1.summary⟩
  · apply ends_bind
    apply ends_drawUuid
    split
    next hsubjects =>
      exact ends_throw ⟨hs.mono rfl (Nat.le_succ _),
        spares_of_store rfl rfl rfl, Or.inl ⟨rfl, rfl⟩,
        fun h => h.2.1 hsubjects⟩
    next subject _ _ =>
      apply ends_bind
      apply ends_drawUuid
      apply ends_bind
      generalize hdraft : draftLease policy
        (policy.canonicalPolicyHash env.host) subject
        (leaseIdOf (env.host.uuidHex s.uuids))
        (env.host.uuidHex (s.uuids + 1)) (env.clock s.ticks)
        supersedesLeaseId = draft
      obtain ⟨first, second, hopen⟩ := @openLease_eq draft
        (by rw [← hdraft]; rfl) (by rw [← hdraft]; rfl) "lease.submitted"
        "lease.operator_confirmed" (env.clock s.ticks).1
        ("operator=" ++ confirmation.operatorId)
      have hid : draft.leaseId = leaseIdOf (env.host.uuidHex s.uuids) := by
        rw [← hdraft]
        rfl
      have hminted : MintedFrom env policy draft.opened := by
        rw [← hdraft]
        exact ⟨rfl, rfl, rfl, rfl⟩
      have hunused : s.leases.get draft.opened.leaseId = none := by
        change s.leases.get draft.leaseId = none
        rw [hid]
        exact hs.leaseIds s.uuids le_rfl
      have hbook := get_put_put s.leases draft.opened first second
      rw [hopen]
      apply ends_pure
      apply ends_bind
      apply ends_modify
      apply ends_bind
      apply ends_putLease
      apply ends_bind
      apply ends_putLease
      apply ends_bind
      -- The new lease is filed; what follows can only touch its predecessor.
      have hbound : s.uuids < s.uuids + 2 := by omega
      refine ends_mono (supersedeOld_ends
        (fresh_opened hs hid hbook hbound.le hbound) _ _) ?_ ?_
      · rintro _ u ⟨honly, hu, heffect⟩
        have hspares : Spares s u := by
          refine Spares.trans ?_ honly.spares
          exact spares_of_store rfl rfl rfl
        rw [hbook] at heffect
        apply ends_bind
        apply ends_get
        apply ends_bind
        apply ends_fileReceipt
        intro receipt
        exact ends_pure ⟨hu.mono rfl (Nat.le_succ _),
          hspares.trans (spares_of_store rfl rfl rfl),
          ⟨honly.policies, honly.situation, hunused, hminted, heffect⟩⟩
      · rintro _ u ⟨honly, hu, heffect, hsupersedes⟩
        have hspares : Spares s u := by
          refine Spares.trans ?_ honly.spares
          exact spares_of_store rfl rfl rfl
        rw [hbook] at heffect
        exact ⟨hu, hspares, Or.inr ⟨draft.opened, honly.policies,
          honly.situation, hunused, hminted, heffect⟩,
          fun h => hsupersedes h.2.2⟩

theorem mintLease_unconfirmed
    (s : LeaseWorld) {policy : CanonicalPolicy}
    {confirmation : OperatorConfirmation} {supersedesLeaseId : Option String}
    (h : ¬ (Confirms env.host policy confirmation ∧ policy.subjects ≠ [])) :
    Ends (mintLease env policy confirmation supersedesLeaseId) s
      (fun _ _ => False) (fun _ t => t.leases = s.leases) := by
  unfold mintLease
  apply ends_bind
  apply ends_readClock
  dsimp only
  split_ifs with hhash hoperator hsummary
  · exact ends_throw rfl
  · exact ends_throw rfl
  · exact ends_throw rfl
  · apply ends_bind
    apply ends_drawUuid
    split
    · exact ends_throw rfl
    next subject subjects hsubjects =>
      refine absurd ⟨⟨?_, ?_, ?_⟩, ?_⟩ h
      · exact not_not.mp hhash
      · exact not_not.mp hoperator
      · exact not_not.mp hsummary
      · rw [hsubjects]
        exact List.cons_ne_nil _ _

/-! ## Delegating -/

/-- A scope that `_subset` lets through. -/
def Narrows (child parent : List String) : Prop :=
  child ≠ [] ∧ child ⊆ parent

theorem narrows_of_subset
    {host : Host} {child parent scope : List String} {label : String}
    (h : subset host child parent label = .ok scope) :
    Narrows child parent := by
  unfold subset at h
  dsimp only at h
  split_ifs at h with hextra hempty
  refine ⟨hempty, fun item hitem => ?_⟩
  by_contra hnot
  apply hextra
  have hmem : item ∈ (child.filter fun item => item ∉ parent).dedup := by
    rw [List.mem_dedup, List.mem_filter, decide_eq_true_eq]
    exact ⟨hitem, hnot⟩
  exact List.ne_nil_of_mem hmem

/-- The delegation passes every check of `delegate_lease`. -/
structure DelegationAccepted
    (parent : CapabilityLease) (args : DelegationArgs) : Prop where
  unrefused : delegationRefusal parent args = none
  actions : Narrows (orScope args.actionScope parent.actionScope)
    parent.actionScope
  objects : Narrows (orScope args.objectScope parent.objectScope)
    parent.objectScope
  purposes : Narrows (orScope args.purposeScope parent.purposeScope)
    parent.purposeScope

/-- What `delegate_lease` makes of a parent and its arguments. -/
structure DelegatedFrom
    (parent : CapabilityLease) (args : DelegationArgs)
    (lease : CapabilityLease) : Prop where
  accepted : DelegationAccepted parent args
  state : lease.state = .active
  uses : lease.remainingUses = args.remainingUses
  parent : lease.parentLeaseId = some parent.leaseId

/-- The specification of `delegate_lease`: it raises and files nothing, or
enters one child. -/
theorem delegateLease_ends
    (hs : s.Fresh env.host) (parent : CapabilityLease)
    (args : DelegationArgs) :
    Ends (delegateLease env parent args) s
      (fun child t => t.Fresh env.host ∧ Spares s t ∧
        t.policies = s.policies ∧ DelegatedFrom parent args child ∧
        s.leases.get child.leaseId = none ∧
        t.leases.get =
          Function.update s.leases.get child.leaseId (some child))
      (fun _ t => t.Fresh env.host ∧ Spares s t ∧
        t.policies = s.policies ∧ t.leases = s.leases) := by
  have hspares (n : ℕ) : Spares s { s with uuids := n } :=
    spares_of_store rfl rfl rfl
  unfold delegateLease
  split
  · exact ends_throw ⟨hs, spares_of_store rfl rfl rfl, rfl, rfl⟩
  next haccepted =>
    apply ends_bind
    apply ends_drawUuid
    have hdrawn : LeaseWorld.Fresh env.host { s with uuids := s.uuids + 1 } :=
      hs.mono rfl (Nat.le_succ _)
    apply ends_bind
    refine ends_raising (fun actions hactions => ?_)
      (fun _ _ => ⟨hdrawn, hspares _, rfl, rfl⟩)
    apply ends_bind
    refine ends_raising (fun objects hobjects => ?_)
      (fun _ _ => ⟨hdrawn, hspares _, rfl, rfl⟩)
    apply ends_bind
    refine ends_raising (fun purposes hpurposes => ?_)
      (fun _ _ => ⟨hdrawn, hspares _, rfl, rfl⟩)
    apply ends_bind
    apply ends_drawUuid
    dsimp only
    generalize hdraft : draftChild parent args actions objects purposes
      (leaseIdOf (env.host.uuidHex s.uuids))
      (env.host.uuidHex (s.uuids + 1)) = draft
    obtain ⟨first, second, hopen⟩ := @openLease_eq draft
      (by rw [← hdraft]; rfl) (by rw [← hdraft]; rfl) "delegation.submitted"
      "delegation.derived_from_parent" args.nowWall
      ("parent=" ++ parent.leaseId)
    have hid : draft.leaseId = leaseIdOf (env.host.uuidHex s.uuids) := by
      rw [← hdraft]
      rfl
    have hchild : DelegatedFrom parent args draft.opened := by
      rw [← hdraft]
      exact ⟨⟨haccepted, narrows_of_subset hactions,
        narrows_of_subset hobjects, narrows_of_subset hpurposes⟩, rfl, rfl,
        rfl⟩
    have hunused : s.leases.get draft.opened.leaseId = none := by
      change s.leases.get draft.leaseId = none
      rw [hid]
      exact hs.leaseIds s.uuids le_rfl
    have hbook := get_put_put s.leases draft.opened first second
    have hbound : s.uuids < s.uuids + 2 := by omega
    rw [hopen]
    apply ends_bind
    apply ends_pure
    apply ends_bind
    apply ends_putLease
    apply ends_bind
    apply ends_putLease
    exact ends_pure ⟨fresh_opened hs hid hbook hbound.le hbound,
      spares_of_store rfl rfl rfl, rfl, hchild, hunused, hbook⟩

/-! ## The cascade -/

/-- The listed leases were live and are revoked; no other lease changes. -/
def RevokedExactly
    (ids : List String) (book book' : String → Option CapabilityLease) : Prop :=
  ∀ leaseId,
    (leaseId ∉ ids → book' leaseId = book leaseId) ∧
      (leaseId ∈ ids → ∃ lease eventId, book leaseId = some lease ∧
        lease.state.isLive = true ∧
        book' leaseId = some (lease.advance .revoked eventId))

theorem transitions_revoke
    {state : LeaseState} (hlive : state.isLive = true) :
    transitions state .revoke = some .revoked := by
  cases state <;> first | rfl | cases hlive

theorem revokedExactly_cons
    {book mid book' : String → Option CapabilityLease} {leaseId : String}
    {ids : List String} {lease : CapabilityLease} {eventId : String}
    (hget : book leaseId = some lease) (hlive : lease.state.isLive = true)
    (hmid : mid = Function.update book leaseId
      (some (lease.advance .revoked eventId)))
    (hnew : leaseId ∉ ids) (hrest : RevokedExactly ids mid book') :
    RevokedExactly (leaseId :: ids) book book' := by
  intro other
  obtain ⟨hkept, hrevoked⟩ := hrest other
  by_cases heq : other = leaseId
  · subst heq
    refine ⟨fun hnot => absurd List.mem_cons_self hnot, fun _ => ?_⟩
    refine ⟨lease, eventId, hget, hlive, ?_⟩
    rw [hkept hnew, hmid, Function.update_self]
  · have hsame : mid other = book other := by
      rw [hmid, Function.update_of_ne heq]
    rw [hsame] at hkept hrevoked
    constructor
    · intro hnot
      exact hkept fun hmem => hnot (List.mem_cons_of_mem _ hmem)
    · intro hmem
      exact hrevoked ((List.mem_cons.mp hmem).resolve_left heq)

/-- The loop of the cascade over leases that are filed and live. -/
theorem cascade_ends
    (nowWall : String) (children : List CapabilityLease) :
    ∀ s : LeaseWorld, s.Fresh env.host →
      (∀ c ∈ children, s.leases.get c.leaseId = some c ∧
        c.state.isLive = true) →
      (children.map CapabilityLease.leaseId).Nodup →
      Ends (children.forM fun lease => do
          let digits ← drawUuid env
          let (updated, event) ← raising (applyTransition lease .revoke
            (eventIdOf lease.leaseId "cascade" digits)
            "delegation.parent_revoked" nowWall "")
          putLease updated event) s
        (fun _ t => OnlyLeases s t ∧ t.Fresh env.host ∧
          RevokedExactly (children.map CapabilityLease.leaseId)
            s.leases.get t.leases.get)
        (fun _ _ => False) := by
  induction children with
  | nil =>
      intro s hs _ _
      refine ends_pure ⟨rfl, hs, fun leaseId => ⟨fun _ => rfl, ?_⟩⟩
      intro hmem
      cases hmem
  | cons lease children ih =>
      intro s hs hfiled hnodup
      obtain ⟨hget, hlive⟩ := hfiled lease List.mem_cons_self
      rw [List.map_cons, List.nodup_cons] at hnodup
      have hnew := hs.eventIds lease.leaseId lease hget s.uuids le_rfl
        "cascade" (by decide)
      apply ends_bind
      apply ends_bind
      apply ends_drawUuid
      apply ends_bind
      have happly : applyTransition lease .revoke
          (eventIdOf lease.leaseId "cascade" (env.host.uuidHex s.uuids))
          "delegation.parent_revoked" nowWall "" =
          .ok (lease.advance .revoked (eventIdOf lease.leaseId "cascade"
              (env.host.uuidHex s.uuids)),
            some ⟨eventIdOf lease.leaseId "cascade"
              (env.host.uuidHex s.uuids), lease.leaseId, .revoke, lease.state,
              .revoked, "delegation.parent_revoked", nowWall, ""⟩) := by
        simp only [applyTransition, if_neg hnew, transitions_revoke hlive]
      rw [happly]
      apply ends_pure
      apply ends_putLease
      have hput := LeaseStore.get_put s.leases (lease.advance .revoked
        (eventIdOf lease.leaseId "cascade" (env.host.uuidHex s.uuids)))
        (some ⟨eventIdOf lease.leaseId "cascade" (env.host.uuidHex s.uuids),
          lease.leaseId, .revoke, lease.state, .revoked,
          "delegation.parent_revoked", nowWall, ""⟩)
      refine ends_mono (ih _ (fresh_advance hs hget (by decide) .revoked hput
        rfl) ?_ hnodup.2) ?_ (fun _ _ h => h)
      · intro c hc
        obtain ⟨hgetc, hlivec⟩ := hfiled c (List.mem_cons_of_mem _ hc)
        have hne : c.leaseId ≠ lease.leaseId := by
          intro heq
          exact hnodup.1 (List.mem_map.mpr ⟨c, hc, heq⟩)
        refine ⟨?_, hlivec⟩
        exact (congrFun hput c.leaseId).trans
          ((Function.update_of_ne hne _ _).trans hgetc)
      · rintro _ t ⟨honly, ht, hrest⟩
        refine ⟨?_, ht, revokedExactly_cons hget hlive hput hnodup.1 hrest⟩
        rw [OnlyLeases] at honly ⊢
        exact honly

theorem nodup_leaseIds (store : LeaseStore) :
    (store.all.map CapabilityLease.leaseId).Nodup := by
  have hkeys : store.all.map CapabilityLease.leaseId =
      store.leases.entries.map Prod.fst := by
    rw [LeaseStore.all, Dict.values, List.map_map]
    apply List.map_congr_left
    intro entry hentry
    exact store.keyed entry.1 entry.2 (store.leases.mem_entries_iff.mp hentry)
  rw [hkeys]
  exact store.leases.nodupKeys

/-- The specification of `revoke_delegations_of`: it returns, and revokes
exactly the live children. -/
theorem revokeDelegationsOf_ends
    (hs : s.Fresh env.host) (parentLeaseId nowWall : String) :
    Ends (revokeDelegationsOf env parentLeaseId nowWall) s
      (fun _ t => OnlyLeases s t ∧ t.Fresh env.host ∧
        RevokedExactly ((liveChildren s.leases parentLeaseId).map
          CapabilityLease.leaseId) s.leases.get t.leases.get)
      (fun _ _ => False) := by
  unfold revokeDelegationsOf
  apply ends_bind
  apply ends_get
  apply ends_bind
  refine ends_mono (cascade_ends nowWall _ s hs ?_ ?_) ?_ (fun _ _ h => h)
  · intro c hc
    rw [liveChildren, List.mem_filter, Bool.and_eq_true] at hc
    exact ⟨LeaseStore.mem_all_iff.mp hc.1, hc.2.2⟩
  · exact (nodup_leaseIds s.leases).sublist
      (List.filter_sublist.map CapabilityLease.leaseId)
  · intro _ t ht
    exact ends_pure ht

end Hydrogenuine.Lease
