import Hydrogenuine.Lease.Lifetime
import Hydrogenuine.Lease.Revocation

/-!
# What revocation and supersession leave behind

A lease that is revoked or superseded should leave nothing behind that can
still act: no permit minted under it or under a lease delegated from it, and no
standing child.  `revoke_lease` revokes the permits of the lease itself but
reaches no child, `revoke_delegations_of` reaches the children but not their
permits, and a superseding mint reaches neither.  `Settled` says that nothing is
left behind; it is kept by every run in which each of these calls finds already
settled what it does not itself reach.
-/

namespace Hydrogenuine.Lease

open Support Hydrogenuine.Core Gpp

variable {env : LeaseEnv} {s t : LeaseWorld}

/-! ## Nothing is left behind -/

def LeaseState.isWithdrawn : LeaseState → Bool
  | .revoked | .superseded => true
  | _ => false

/-- Every permit minted under the lease is spent. -/
def OwnSpent (s : LeaseWorld) (leaseId : String) : Prop :=
  ∀ permitId ∈ s.minted leaseId, s.spent permitId = true

/-- Every lease delegated from this one has ended, with its permits spent. -/
def ChildrenSettled (s : LeaseWorld) (leaseId : String) : Prop :=
  ∀ id child, s.leases.get id = some child →
    child.parentLeaseId = some leaseId →
      child.state.isTerminal = true ∧ OwnSpent s id

/-- A withdrawn lease has left nothing behind, and the records about leases and
permits fit together. -/
structure Settled (s : LeaseWorld) : Prop where
  known : ∀ id, ∀ permitId ∈ s.minted id, s.known permitId = true
  owned : ∀ id, ∀ permitId ∈ s.minted id, s.leases.get id ≠ none
  entered : ∀ id lease, s.leases.get id = some lease →
    lease.state.entered = true
  parents : ∀ id child parentId, s.leases.get id = some child →
    child.parentLeaseId = some parentId →
      ∃ parent, s.leases.get parentId = some parent ∧
        parent.parentLeaseId = none
  withdrawn : ∀ id lease, s.leases.get id = some lease →
    lease.state.isWithdrawn = true → OwnSpent s id ∧ ChildrenSettled s id

/-- The call finds settled what it would leave behind: a revocation the children
of the lease, a confirmed superseding mint also its permits, a cascade the permits of the
children it revokes, and `revoke_all` the permits of children that have already
ended; and a delegation is from a lease on record that is neither withdrawn nor
itself delegated. -/
def ReachesAll (host : Host) (s : LeaseWorld) : LeaseOp → Prop
  | .mint policy confirmation (some old) =>
      Confirms host policy confirmation → policy.subjects ≠ [] →
      ∀ lease, s.leases.get old = some lease → lease.state.isLive = true →
        OwnSpent s old ∧ ChildrenSettled s old
  | .delegate parent args => DelegationAccepted parent args →
      ∃ filed, s.leases.get parent.leaseId = some filed ∧
        filed.state.isWithdrawn = false ∧ filed.parentLeaseId = none
  | .revoke leaseId _ _ => ∀ lease, s.leases.get leaseId = some lease →
      lease.state.isLive = true → ChildrenSettled s leaseId
  | .revokeAll _ => ∀ id child parentId parent,
      s.leases.get id = some child → child.parentLeaseId = some parentId →
      s.leases.get parentId = some parent → parent.state.isLive = true →
      child.state.isTerminal = true → OwnSpent s id
  | .revokeDelegationsOf parentId _ => ∀ id child,
      s.leases.get id = some child → child.parentLeaseId = some parentId →
      child.state.isLive = true → OwnSpent s id
  | _ => True

/-! ## Steps and records -/

theorem leaseStep_kept (hs : s.Fresh env.host) (op : LeaseOp) :
    PermitsKept s (leaseStep env s op).1 := by
  by_cases hop : ∃ request, op = .authorize request
  · obtain ⟨request, rfl⟩ := hop
    rcases leaseStep_authorized hs request with
      ⟨answer, -, hauthorized⟩ | ⟨e, -, hraised⟩
    · exact hauthorized.kept
    · exact permitsKept_of_store hraised.untouched.store
  · exact (leaseStep_quiet hs
      fun request heq => hop ⟨request, heq⟩).spares.kept

theorem leaseStep_minted
    (hs : s.Fresh env.host) (op : LeaseOp) {id permitId : String}
    (hmem : permitId ∈ (leaseStep env s op).1.minted id) :
    permitId ∈ s.minted id ∨
      ∃ lease, s.leases.get id = some lease ∧ lease.state = .active ∧
        (leaseStep env s op).1.known permitId = true := by
  have hsame (h : (leaseStep env s op).1.mintedPermits = s.mintedPermits) :
      permitId ∈ s.minted id := by
    rw [LeaseWorld.minted, h] at hmem
    exact hmem
  by_cases hop : ∃ request, op = .authorize request
  · obtain ⟨request, rfl⟩ := hop
    rcases leaseStep_authorized hs request with
      ⟨answer, -, hauthorized⟩ | ⟨e, -, hraised⟩
    · rcases hauthorized.effect with hrefused | ⟨lease, lease', new, hby⟩
      · exact Or.inl (hsame hrefused.minted)
      · obtain ⟨hknown, hminted⟩ := hby.records
        rw [LeaseWorld.minted, hminted, Dict.get?_set] at hmem
        split at hmem
        next hid =>
          subst hid
          rcases List.mem_append.mp hmem with hold | hnew
          · exact Or.inl hold
          · obtain rfl := List.mem_singleton.mp hnew
            exact Or.inr ⟨lease, hby.by_lease.filed, hby.by_lease.active, hknown⟩
        · exact Or.inl hmem
    · exact Or.inl (hsame hraised.untouched.minted)
  · exact Or.inl (hsame (leaseStep_quiet hs
      fun request heq => hop ⟨request, heq⟩).spares.minted)

variable {lease lease' : CapabilityLease} {id : String} {op : LeaseOp}

/-- A lease that appears is active or has just been superseded, and is a child
only by a delegation. -/
theorem leaseStep_newChild
    (hs : s.Fresh env.host) {id parentId : String}
    {child : CapabilityLease} (hunused : s.leases.get id = none)
    (hget : (leaseStep env s op).1.leases.get id = some child)
    (hparent : child.parentLeaseId = some parentId) :
    ∃ parent args, op = .delegate parent args ∧ parent.leaseId = parentId ∧
      DelegationAccepted parent args := by
  obtain ⟨lease, hopens, hmoves⟩ := leaseStep_entered hs op hunused hget
  have hsame := congrArg CapabilityLease.parentLeaseId (moves_run hmoves).1
  have hlease : lease.parentLeaseId = some parentId := hsame.symm.trans hparent
  cases op with
  | mint policy confirmation supersedesLeaseId =>
      rw [hopens.parent] at hlease
      cases hlease
  | delegate parent args =>
      exact ⟨parent, args, rfl, Option.some.inj (hopens.parent.symm.trans hlease),
        hopens.accepted⟩
  | _ => exact hopens.elim

theorem ownSpent_step
    (hs : s.Fresh env.host) (op : LeaseOp)
    (hinactive : ∀ lease, s.leases.get id = some lease →
      lease.state ≠ .active)
    (hspent : OwnSpent s id) : OwnSpent (leaseStep env s op).1 id := by
  intro permitId hmem
  rcases leaseStep_minted hs op hmem with hold | ⟨lease, hget, hactive, -⟩
  · exact (leaseStep_kept hs op).spent (hspent permitId hold)
  · exact absurd hactive (hinactive lease hget)

theorem childrenSettled_step
    (hs : s.Fresh env.host) (op : LeaseOp)
    (hnone : ∀ parent args, op = .delegate parent args →
      parent.leaseId = id → ¬ DelegationAccepted parent args)
    (hsettled : ChildrenSettled s id) :
    ChildrenSettled (leaseStep env s op).1 id := by
  intro childId child' hget' hparent'
  cases hget : s.leases.get childId with
  | none =>
      obtain ⟨parent, args, hop, hid, haccepted⟩ :=
        leaseStep_newChild hs hget hget' hparent'
      exact absurd haccepted (hnone parent args hop hid)
  | some child =>
      obtain ⟨filed, hfiled, hlater⟩ := leaseStep_laterRecord hs op hget
      obtain rfl := Option.some.inj (hfiled.symm.trans hget')
      have hsame := congrArg CapabilityLease.parentLeaseId hlater.terms
      obtain ⟨hterminal, hspent⟩ :=
        hsettled childId child hget (hsame.symm.trans hparent')
      have hstate := eq_of_edges_of_isTerminal hlater.edges hterminal
      refine ⟨by rw [hstate]; exact hterminal, ownSpent_step hs op ?_ hspent⟩
      intro lease hlease hactive
      obtain rfl := Option.some.inj (hlease.symm.trans hget)
      rw [hactive] at hterminal
      cases hterminal

theorem OwnSpent.of_spares (hspent : OwnSpent s id) (h : Spares s t) :
    OwnSpent t id := by
  intro permitId hmem
  rw [LeaseWorld.minted, h.minted] at hmem
  exact h.kept.spent (hspent permitId hmem)

/-! ## What withdraws a lease -/

theorem event_of_isWithdrawn
    {state next : LeaseState} {event : LeaseEvent}
    (hnext : transitions state event = some next)
    (h : next.isWithdrawn = true) :
    event = .revoke ∨ event = .supersede := by
  cases state <;> cases event <;> cases hnext <;>
    first | exact Or.inl rfl | exact Or.inr rfl | cases h

theorem events_of_isWithdrawn
    {Events : LeaseEvent → Prop}
    (hrun : Relation.ReflTransGen (MovesBy Events) lease lease')
    (hbefore : lease.state.isWithdrawn = false)
    (hafter : lease'.state.isWithdrawn = true) :
    Events .revoke ∨ Events .supersede := by
  cases hrun with
  | refl =>
      rw [hbefore] at hafter
      cases hafter
  | tail _ hmove =>
      obtain ⟨event, state, eventId, hevent, hnext, rfl⟩ := hmove
      rcases event_of_isWithdrawn hnext hafter with rfl | rfl
      · exact Or.inl hevent
      · exact Or.inr hevent

/-- The step withdraws this lease. -/
structure Withdraws
    (s t : LeaseWorld) (id : String) (lease lease' : CapabilityLease) :
    Prop where
  before : s.leases.get id = some lease
  live : lease.state.isLive = true
  after : t.leases.get id = some lease'
  withdrawn : lease'.state.isWithdrawn = true

namespace Withdraws

variable {id : String} {lease lease' : CapabilityLease}

theorem not_isWithdrawn (h : Withdraws s t id lease lease') :
    lease.state.isWithdrawn = false := by
  have hlive := h.live
  cases hstate : lease.state <;> rw [hstate] at hlive <;>
    first | rfl | cases hlive

theorem changed (h : Withdraws s t id lease lease') :
    t.leases.get id ≠ s.leases.get id := by
  intro hsame
  obtain rfl := Option.some.inj (h.after.symm.trans (hsame.trans h.before))
  exact absurd (h.withdrawn.symm.trans h.not_isWithdrawn) (by decide)

theorem not_authorize
    {request : ActionRequest} (hs : s.Fresh env.host)
    (h : Withdraws s (leaseStep env s (.authorize request)).1 id lease
      lease') : False := by
  rcases leaseStep_authorized hs request with
    ⟨answer, -, hauthorized⟩ | ⟨e, -, hraised⟩
  · rcases hauthorized.effect with hrefused | ⟨filed, filed', permitId, hby⟩
    · exact h.changed (by rw [hrefused.leases])
    · by_cases hid : id = filed.leaseId
      · subst hid
        have hafter := h.after
        rw [hby.book, Function.update_self, Option.some.injEq] at hafter
        subst hafter
        have hwithdrawn := h.withdrawn
        rcases hby.spends.state_cases.2 with hstate | hstate
        · rw [hstate] at hwithdrawn
          cases hwithdrawn
        · rw [hstate] at hwithdrawn
          cases hwithdrawn
      · exact h.changed (by rw [hby.book, Function.update_of_ne hid])
  · exact h.changed (by rw [hraised.untouched.leases])

theorem events
    {op : LeaseOp} (hquiet : QuietStep env op s t)
    (h : Withdraws s t id lease lease') :
    op.events .revoke ∨ op.events .supersede := by
  obtain ⟨filed, hfiled, hrun⟩ := hquiet.book.evolves h.before
  obtain rfl := Option.some.inj (hfiled.symm.trans h.after)
  exact events_of_isWithdrawn hrun h.not_isWithdrawn h.withdrawn

theorem superseded
    {policy : CanonicalPolicy} {confirmation : OperatorConfirmation}
    {supersedesLeaseId : Option String} (hs : s.Fresh env.host)
    (h : Withdraws s
      (leaseStep env s (.mint policy confirmation supersedesLeaseId)).1 id
      lease lease') : supersedesLeaseId = some id := by
  have heffect : ∀ new, MintEffect env s
      (leaseStep env s (.mint policy confirmation supersedesLeaseId)).1 policy
      supersedesLeaseId new → supersedesLeaseId = some id := by
    intro new hmint
    have hne : id ≠ new.leaseId := by
      rintro rfl
      have hunused := hmint.unused
      rw [h.before] at hunused
      cases hunused
    rcases hmint.book with hsame | ⟨old, filed, eventId, hold, -, -, hbook⟩
    · exact absurd (by rw [hsame, Function.update_of_ne hne]) h.changed
    · by_cases hid : id = old
      · rw [hid]
        exact hold
      · refine absurd ?_ h.changed
        rw [hbook, Function.update_of_ne hid, Function.update_of_ne hne]
  rcases (mintLease_ends hs policy confirmation supersedesLeaseId).cases with
    ⟨new, -, -, -, hmint⟩ | ⟨e, -, -, -, ⟨hleases, -⟩ | ⟨new, hmint⟩, -⟩
  · exact heffect new hmint
  · exact absurd (congrArg (LeaseStore.get · id) hleases) h.changed
  · exact heffect new hmint

theorem of_mint
    {policy : CanonicalPolicy} {confirmation : OperatorConfirmation}
    {supersedesLeaseId : Option String} (hs : s.Fresh env.host)
    (h : Withdraws s
      (leaseStep env s (.mint policy confirmation supersedesLeaseId)).1 id
      lease lease') :
    supersedesLeaseId = some id ∧ Confirms env.host policy confirmation ∧
      policy.subjects ≠ [] := by
  refine ⟨h.superseded hs, ?_⟩
  by_contra hunconfirmed
  rcases (mintLease_unconfirmed s hunconfirmed).cases with
    ⟨new, -, hfalse⟩ | ⟨e, -, hleases⟩
  · exact hfalse
  · exact h.changed (congrArg (LeaseStore.get · id) hleases)

theorem of_revoke
    {leaseId revokerRef reasonCode : String} (hs : s.Fresh env.host)
    (h : Withdraws s
      (leaseStep env s (.revoke leaseId revokerRef reasonCode)).1 id lease
      lease') :
    leaseId = id ∧ ∀ permitId ∈ s.minted id, s.known permitId = true →
      (leaseStep env s (.revoke leaseId revokerRef reasonCode)).1.spent
        permitId = true := by
  rcases (revokeLease_ends (transition_ends hs leaseId .revoke reasonCode
      ("revoker=" ++ revokerRef))).cases with
    ⟨-, -, u, ⟨honly, -, hmoved⟩, hrevoked⟩ | ⟨e, -, -, -, hleases, -⟩
  · have hsame := congrArg LeaseStore.get hrevoked.leases
    have hid : leaseId = id := by
      by_contra hne
      refine h.changed ((congrFun hsame id).trans ?_)
      rcases hmoved with ⟨hleases, -⟩ | ⟨filed, state, eventId, -, -, hbook⟩
      · rw [hleases]
      · rw [hbook, Function.update_of_ne (Ne.symm hne)]
    subst hid
    refine ⟨rfl, fun permitId hmem hknown => ?_⟩
    apply hrevoked.spent permitId
    · rw [LeaseWorld.minted, honly.spares.minted]
      exact hmem
    · exact honly.spares.kept.known permitId hknown
  · exact absurd (congrArg (LeaseStore.get · id) hleases) h.changed

theorem of_revokeDelegationsOf
    {parentLeaseId nowWall : String} (hs : s.Fresh env.host)
    (h : Withdraws s
      (leaseStep env s (.revokeDelegationsOf parentLeaseId nowWall)).1 id lease
      lease') : lease.parentLeaseId = some parentLeaseId := by
  rcases (revokeDelegationsOf_ends hs parentLeaseId nowWall).cases with
    ⟨ids, -, -, -, hrevoked⟩ | ⟨e, -, hfalse⟩
  · have hmem : id ∈ (liveChildren s.leases parentLeaseId).map
        CapabilityLease.leaseId := by
      by_contra hnot
      exact h.changed ((hrevoked id).1 hnot)
    obtain ⟨child, hchild, rfl⟩ := List.mem_map.mp hmem
    rw [liveChildren, List.mem_filter, Bool.and_eq_true,
      decide_eq_true_eq] at hchild
    have hget := LeaseStore.mem_all_iff.mp hchild.1
    obtain rfl := Option.some.inj (hget.symm.trans h.before)
    exact hchild.2.1
  · exact hfalse.elim

end Withdraws

/-! ## A withdrawal that reaches all leaves nothing -/

/-- `revoke_all` reaches every live lease with its permits, so what it leaves
to be found settled are the permits of children that have already ended. -/
theorem settled_of_revokeAll
    (hs : s.Fresh env.host) (hsettled : Settled s) {revokerRef id : String}
    (hreaches : ReachesAll env.host s (.revokeAll revokerRef))
    (h : Withdraws s (leaseStep env s (.revokeAll revokerRef)).1 id lease
      lease') :
    OwnSpent (leaseStep env s (.revokeAll revokerRef)).1 id ∧
      ChildrenSettled (leaseStep env s (.revokeAll revokerRef)).1 id := by
  rcases (revokeAll_ends hs revokerRef).cases with
    ⟨n, -, hrevoked, hspares, hspent⟩ | ⟨e, -, hfalse⟩
  · have hown (leaseId : String) (hlive : leaseId ∈ liveIds s.leases) :
        OwnSpent (leaseStep env s (.revokeAll revokerRef)).1 leaseId := by
      intro permitId hmem
      have hold : permitId ∈ s.minted leaseId := by
        rw [LeaseWorld.minted, ← hspares.minted]
        exact hmem
      exact hspent leaseId hlive permitId hold
        (hsettled.known leaseId permitId hold)
    refine ⟨hown id (mem_liveIds_iff.mpr ⟨lease, h.before, h.live⟩), ?_⟩
    intro childId child' hget' hparent'
    by_cases hlive : childId ∈ liveIds s.leases
    · obtain ⟨child, eventId, -, -, hchild⟩ := (hrevoked childId).2 hlive
      obtain rfl := Option.some.inj (hchild.symm.trans hget')
      exact ⟨rfl, hown childId hlive⟩
    · have hsame := (hrevoked childId).1 hlive
      have hget : s.leases.get childId = some child' := hsame.symm.trans hget'
      have hterminal : child'.state.isTerminal = true := by
        have hentered := hsettled.entered childId child' hget
        rw [LeaseState.entered, Bool.or_eq_true] at hentered
        refine hentered.resolve_left fun h => ?_
        exact hlive (mem_liveIds_iff.mpr ⟨child', hget, h⟩)
      have hchild := hreaches childId child' id lease hget hparent' h.before
        h.live hterminal
      exact ⟨hterminal, hchild.of_spares hspares⟩
  · exact hfalse.elim

/-- A lease that a step withdraws leaves nothing behind, if the step finds
settled what it does not reach. -/
theorem settled_of_withdraws
    (hs : s.Fresh env.host) (hsettled : Settled s)
    (hreaches : ReachesAll env.host s op)
    (h : Withdraws s (leaseStep env s op).1 id lease lease') :
    OwnSpent (leaseStep env s op).1 id ∧
      ChildrenSettled (leaseStep env s op).1 id := by
  have hquiet (hop : ∀ request, op ≠ .authorize request) :
      QuietStep env op s (leaseStep env s op).1 := leaseStep_quiet hs hop
  have hevents (hop : ∀ request, op ≠ .authorize request) :=
    h.events (hquiet hop)
  cases op with
  | authorize request => exact (h.not_authorize hs).elim
  | mint policy confirmation supersedesLeaseId =>
      obtain ⟨rfl, hconfirms, hsubjects⟩ := h.of_mint hs
      obtain ⟨hown, hchildren⟩ :=
        hreaches hconfirms hsubjects lease h.before h.live
      refine ⟨hown.of_spares (hquiet (by simp)).spares,
        childrenSettled_step hs _ (by simp) hchildren⟩
  | revoke leaseId revokerRef reasonCode =>
      obtain ⟨rfl, hspent⟩ := h.of_revoke hs
      refine ⟨fun permitId hmem => ?_, childrenSettled_step hs _ (by simp)
        (hreaches lease h.before h.live)⟩
      rw [LeaseWorld.minted, (hquiet (by simp)).spares.minted] at hmem
      exact hspent permitId hmem (hsettled.known leaseId permitId hmem)
  | revokeAll revokerRef =>
      exact settled_of_revokeAll hs hsettled hreaches h
  | revokeDelegationsOf parentLeaseId nowWall =>
      have hparent := h.of_revokeDelegationsOf hs
      have hown := hreaches id lease h.before hparent h.live
      refine ⟨hown.of_spares (hquiet (by simp)).spares,
        childrenSettled_step hs _ (by simp) ?_⟩
      -- A child has no children of its own.
      intro childId child hget hchild
      obtain ⟨parent, hfiled, hnone⟩ :=
        hsettled.parents childId child id hget hchild
      obtain rfl := Option.some.inj (hfiled.symm.trans h.before)
      rw [hparent] at hnone
      cases hnone
  | delegate parent args => simpa [LeaseOp.events] using hevents (by simp)
  | dispatch authorized request =>
      simpa [LeaseOp.events] using hevents (by simp)
  | suspend leaseId reasonCode =>
      simpa [LeaseOp.events] using hevents (by simp)
  | resume leaseId reasonCode =>
      simpa [LeaseOp.events] using hevents (by simp)
  | expire leaseId => simpa [LeaseOp.events] using hevents (by simp)
  | putFact fact => simpa [LeaseOp.events] using hevents (by simp)

theorem Settled.of_unused
    (hsettled : Settled s) (hunused : s.leases.get id = none) :
    OwnSpent s id ∧ ChildrenSettled s id := by
  constructor
  · intro permitId hmem
    exact absurd hunused (hsettled.owned id permitId hmem)
  · intro childId child hget hparent
    obtain ⟨parent, hfiled, -⟩ := hsettled.parents childId child id hget hparent
    rw [hunused] at hfiled
    cases hfiled

theorem parents_step
    (hs : s.Fresh env.host) (hsettled : Settled s)
    (hreaches : ReachesAll env.host s op) {id parentId : String}
    {child' : CapabilityLease}
    (hget' : (leaseStep env s op).1.leases.get id = some child')
    (hparent' : child'.parentLeaseId = some parentId) :
    ∃ parent, s.leases.get parentId = some parent ∧
      parent.parentLeaseId = none := by
  cases hget : s.leases.get id with
  | none =>
      obtain ⟨parent, args, rfl, rfl, haccepted⟩ :=
        leaseStep_newChild hs hget hget' hparent'
      obtain ⟨filed, hfiled, -, hnone⟩ := hreaches haccepted
      exact ⟨filed, hfiled, hnone⟩
  | some child =>
      obtain ⟨filed, hfiled, hlater⟩ := leaseStep_laterRecord hs op hget
      obtain rfl := Option.some.inj (hfiled.symm.trans hget')
      have hsame := congrArg CapabilityLease.parentLeaseId hlater.terms
      exact hsettled.parents id child parentId hget (hsame.symm.trans hparent')

theorem withdrawn_step
    (hs : s.Fresh env.host) (hsettled : Settled s)
    (hreaches : ReachesAll env.host s op) {lease' : CapabilityLease}
    (hget' : (leaseStep env s op).1.leases.get id = some lease')
    (hwithdrawn : lease'.state.isWithdrawn = true) :
    OwnSpent (leaseStep env s op).1 id ∧
      ChildrenSettled (leaseStep env s op).1 id := by
  -- No child enters under a lease that is withdrawn or not on record.
  have hnone (hparent : ∀ filed, s.leases.get id = some filed →
      filed.state.isWithdrawn = true) :
      ∀ parent args, op = .delegate parent args → parent.leaseId = id →
        ¬ DelegationAccepted parent args := by
    rintro parent args rfl rfl haccepted
    obtain ⟨filed, hfiled, hstanding, -⟩ := hreaches haccepted
    rw [hparent filed hfiled] at hstanding
    cases hstanding
  cases hget : s.leases.get id with
  | none =>
      obtain ⟨hown, hchildren⟩ := hsettled.of_unused hget
      refine ⟨ownSpent_step hs op ?_ hown,
        childrenSettled_step hs op (hnone ?_) hchildren⟩
      · intro lease hlease
        rw [hget] at hlease
        cases hlease
      · intro lease hlease
        rw [hget] at hlease
        cases hlease
  | some lease =>
      have hentered := hsettled.entered id lease hget
      rw [LeaseState.entered, Bool.or_eq_true] at hentered
      rcases hentered with hlive | hterminal
      · exact settled_of_withdraws hs hsettled hreaches
          ⟨hget, hlive, hget', hwithdrawn⟩
      · obtain ⟨filed, hfiled, hlater⟩ := leaseStep_laterRecord hs op hget
        obtain rfl := Option.some.inj (hfiled.symm.trans hget')
        have hstate := eq_of_edges_of_isTerminal hlater.edges hterminal
        rw [hstate] at hwithdrawn
        obtain ⟨hown, hchildren⟩ := hsettled.withdrawn id lease hget hwithdrawn
        refine ⟨ownSpent_step hs op ?_ hown,
          childrenSettled_step hs op (hnone ?_) hchildren⟩
        · intro other hother hactive
          obtain rfl := Option.some.inj (hother.symm.trans hget)
          rw [hactive] at hterminal
          cases hterminal
        · intro other hother
          obtain rfl := Option.some.inj (hother.symm.trans hget)
          exact hwithdrawn

theorem settled_step
    (hs : s.Fresh env.host) (hsettled : Settled s)
    (hreaches : ReachesAll env.host s op) : Settled (leaseStep env s op).1 where
  known id permitId hmem := by
    rcases leaseStep_minted hs op hmem with hold | ⟨-, -, -, hknown⟩
    · exact (leaseStep_kept hs op).known permitId
        (hsettled.known id permitId hold)
    · exact hknown
  owned id permitId hmem := by
    have hfiled : s.leases.get id ≠ none := by
      rcases leaseStep_minted hs op hmem with hold | ⟨lease, hget, -, -⟩
      · exact hsettled.owned id permitId hold
      · rw [hget]
        exact Option.some_ne_none _
    obtain ⟨lease, hget⟩ := Option.ne_none_iff_exists'.mp hfiled
    obtain ⟨lease', hget', -⟩ := leaseStep_laterRecord hs op hget
    rw [hget']
    exact Option.some_ne_none _
  entered id lease' hget' := by
    have hentered {a b : LeaseState} (hrun : Relation.ReflTransGen Edge a b)
        (ha : a.entered = true) : b.entered = true := by
      induction hrun with
      | refl => exact ha
      | tail _ hedge ih => exact entered_of_edge hedge ih
    cases hget : s.leases.get id with
    | none =>
        obtain ⟨lease, hopens, hmoves⟩ := leaseStep_entered hs op hget hget'
        refine hentered (moves_run hmoves).2.2 ?_
        cases op with
        | mint policy confirmation supersedesLeaseId =>
            rw [hopens.state]
            rfl
        | delegate parent args =>
            rw [hopens.state]
            rfl
        | _ => exact hopens.elim
    | some lease =>
        obtain ⟨filed, hfiled, hlater⟩ := leaseStep_laterRecord hs op hget
        obtain rfl := Option.some.inj (hfiled.symm.trans hget')
        exact hentered hlater.edges (hsettled.entered id lease hget)
  parents id child' parentId hget' hparent' := by
    obtain ⟨parent, hfiled, hnone⟩ :=
      parents_step hs hsettled hreaches hget' hparent'
    obtain ⟨parent', hfiled', hlater⟩ := leaseStep_laterRecord hs op hfiled
    have hsame := congrArg CapabilityLease.parentLeaseId hlater.terms
    exact ⟨parent', hfiled', hsame.trans hnone⟩
  withdrawn _ _ hget' hwithdrawn :=
    withdrawn_step hs hsettled hreaches hget' hwithdrawn

/-! ## Runs -/

def LeaseWorld.withdrawn (s : LeaseWorld) (leaseId : String) : Bool :=
  (s.leases.get leaseId).any fun lease => lease.state.isWithdrawn

def LeaseWorld.childOf (s : LeaseWorld) (id parentId : String) : Bool :=
  (s.leases.get id).any fun child =>
    decide (child.parentLeaseId = some parentId)

def consumes (permitId : String) (e : LeaseStep) : Bool :=
  !e.before.gpp.store.isConsumed permitId &&
    e.after.gpp.store.isConsumed permitId

/-- Where a lease is withdrawn, the step consumes no permit minted under it or
under a lease delegated from it, and allows nothing under a lease delegated
from it. -/
structure WithdrawalEffective (e : LeaseStep) : Prop where
  permits : ∀ leaseId id permitId, e.before.withdrawn leaseId = true →
    (id = leaseId ∨ e.before.childOf id leaseId = true) →
    permitId ∈ e.before.minted id → consumes permitId e = false
  children : ∀ leaseId id, e.before.withdrawn leaseId = true →
    e.before.childOf id leaseId = true → allowsUnder id e = false

theorem consumes_of_spent
    (hs : s.Fresh env.host) (op : LeaseOp) {permitId : String}
    (hspent : s.spent permitId = true) :
    consumes permitId ((leaseMachine env).stepAt s op) = false := by
  rw [Bool.eq_false_iff]
  intro hconsumes
  rw [consumes, Bool.and_eq_true, Bool.not_eq_true'] at hconsumes
  obtain ⟨hbefore, hafter⟩ := hconsumes
  have hlive : s.gpp.store.isRevoked permitId = false := by
    refine ((leaseStep_kept hs op).unrevoked permitId hafter).resolve_left ?_
    intro hconsumed
    exact absurd (hconsumed.symm.trans hbefore) (by decide)
  have hunspent : s.spent permitId = false := by
    rw [LeaseWorld.spent, hlive]
    exact hbefore
  exact absurd (hspent.symm.trans hunspent) (by decide)

theorem effective_of_settled
    (hs : s.Fresh env.host) (hsettled : Settled s) (op : LeaseOp) :
    WithdrawalEffective ((leaseMachine env).stepAt s op) where
  permits leaseId id permitId hwithdrawn hid hmem := by
    obtain ⟨lease, hget, hstate⟩ := (Option.any_eq_true ..).mp hwithdrawn
    obtain ⟨hown, hchildren⟩ := hsettled.withdrawn leaseId lease hget hstate
    apply consumes_of_spent hs
    rcases hid with rfl | hchild
    · exact hown permitId hmem
    · obtain ⟨child, hfiled, hparent⟩ := (Option.any_eq_true ..).mp hchild
      exact (hchildren id child hfiled (of_decide_eq_true hparent)).2 permitId
        hmem
  children leaseId id hwithdrawn hchild := by
    obtain ⟨lease, hget, hstate⟩ := (Option.any_eq_true ..).mp hwithdrawn
    obtain ⟨child, hfiled, hparent⟩ := (Option.any_eq_true ..).mp hchild
    obtain ⟨hterminal, -⟩ := (hsettled.withdrawn leaseId lease hget hstate).2 id
      child hfiled (of_decide_eq_true hparent)
    rw [Bool.eq_false_iff]
    intro hallows
    obtain ⟨_, _, allowed, _, _, -, rfl, hby⟩ :=
      allowed_of_allowsUnder hs hallows
    obtain rfl := Option.some.inj (hby.by_lease.filed.symm.trans hfiled)
    rw [hby.by_lease.active] at hterminal
    cases hterminal

theorem settled_init
    (situation : Dict String SituationFact) (gpp : PermitAuthority) :
    Settled (.init situation gpp) where
  known _ _ hmem := by cases hmem
  owned _ _ hmem := by cases hmem
  entered _ _ hget := by cases hget
  parents _ _ _ hget := by cases hget
  withdrawn _ _ hget := by cases hget

/-- In every run whose calls reach or find settled all that a withdrawal leaves
behind, withdrawals are effective. -/
theorem withdrawal_effective
    (env : LeaseEnv) (situation : Dict String SituationFact)
    (gpp : PermitAuthority) (ops : List LeaseOp)
    (hguard : (leaseMachine env).Guarded (ReachesAll env.host) (.init situation gpp)
      ops) :
    ∀ e ∈ (leaseMachine env).trace (.init situation gpp) ops,
      WithdrawalEffective e := by
  let Inv : List LeaseStep → LeaseWorld → Prop := fun tr s =>
    s.Fresh env.host ∧ Settled s ∧ ∀ e ∈ tr, WithdrawalEffective e
  have hinit : Inv [] (.init situation gpp) := by
    refine ⟨LeaseWorld.fresh_init env.host situation gpp,
      settled_init situation gpp, ?_⟩
    intro e he
    cases he
  have hstep : ∀ tr s op, Inv tr s → ReachesAll env.host s op →
      Inv (tr ++ [(leaseMachine env).stepAt s op])
        ((leaseMachine env).step s op).1 := by
    rintro tr s op ⟨hs, hsettled, heffective⟩ hreaches
    refine ⟨leaseStep_fresh hs op, settled_step hs hsettled hreaches, ?_⟩
    intro e he
    rcases List.mem_append.mp he with hold | hnew
    · exact heffective e hold
    · obtain rfl := List.mem_singleton.mp hnew
      exact effective_of_settled hs hsettled op
  exact (Machine.invariant_of_guarded Inv hinit hstep ops hguard).2.2

def LeaseReply.authorizes (test : AuthorizedAction → Bool) : LeaseReply → Bool
  | .authorized (.ok answer) => test answer
  | _ => false

theorem LeaseReply.exists_of_authorizes
    {test : AuthorizedAction → Bool} {reply : LeaseReply}
    (h : reply.authorizes test = true) :
    ∃ answer, reply = .authorized (.ok answer) ∧ test answer = true := by
  unfold authorizes at h
  split at h
  next answer => exact ⟨answer, rfl, h⟩
  · cases h

def holderRequest : LeaseOp :=
  .authorize (referenceAction "req-1" "agent:lamp")

def mintedWorld : LeaseWorld :=
  (leaseStep referenceEnv referenceWorld (referenceMint 2 none)).1

def revokingRun
    (lease : CapabilityLease) (authorized : AuthorizedAction) : List LeaseOp :=
  [referenceMint 2 none, holderRequest,
    .revoke lease.leaseId "operator:owner" "lease.operator_revoked",
    .dispatch authorized (referenceAction "req-1" "agent:lamp")]

theorem reachesAll_revoke_of_childless
    (host : Host) (hchildless : (s.leases.all.all fun child =>
      child.parentLeaseId.isNone) = true)
    (leaseId revokerRef reasonCode : String) :
    ReachesAll host s (.revoke leaseId revokerRef reasonCode) := by
  intro lease _ _ id child hget hparent
  have hnone := List.all_eq_true.mp hchildless child
    (LeaseStore.mem_all_iff.mpr (by
      rw [LeaseStore.leaseId_of_get hget]
      exact hget))
  rw [hparent] at hnone
  cases hnone

theorem withdrawal_effective_revokingRun :
    ∃ lease authorized,
      (leaseStep referenceEnv referenceWorld (referenceMint 2 none)).2 =
        .minted (.ok lease) ∧
      (leaseStep referenceEnv mintedWorld holderRequest).2 =
        .authorized (.ok authorized) ∧
      ((leaseMachine referenceEnv).final referenceWorld
        (revokingRun lease authorized)).withdrawn lease.leaseId = true ∧
      ∀ e ∈ (leaseMachine referenceEnv).trace referenceWorld
        (revokingRun lease authorized), WithdrawalEffective e := by
  have hrun : (leaseStep referenceEnv referenceWorld
      (referenceMint 2 none)).2.mints (fun lease =>
        (leaseStep referenceEnv mintedWorld holderRequest).2.authorizes
          fun authorized => ((leaseMachine referenceEnv).final referenceWorld
            (revokingRun lease authorized)).withdrawn lease.leaseId) =
      true := by
    decide +kernel
  have hchildless : ((leaseStep referenceEnv mintedWorld
      holderRequest).1.leases.all.all fun child =>
        child.parentLeaseId.isNone) = true := by
    decide +kernel
  obtain ⟨lease, hlease, hrest⟩ := LeaseReply.exists_of_mints hrun
  obtain ⟨authorized, hanswer, hwithdrawn⟩ :=
    LeaseReply.exists_of_authorizes hrest
  refine ⟨lease, authorized, hlease, hanswer, hwithdrawn, withdrawal_effective
    referenceEnv Dict.empty (.init .empty) (revokingRun lease authorized) ?_⟩
  have hreaches := reachesAll_revoke_of_childless referenceHost hchildless
    lease.leaseId "operator:owner" "lease.operator_revoked"
  rw [revokingRun, Machine.guarded_cons, Machine.guarded_cons,
    Machine.guarded_cons, Machine.guarded_cons]
  refine ⟨trivial, trivial, hreaches, trivial, Machine.guarded_nil⟩

/-- A lease with a child and an outstanding permit is superseded; then the
permit is dispatched and the child asks for the lamp. -/
def supersedingRun
    (lease : CapabilityLease) (authorized : AuthorizedAction) : List LeaseOp :=
  [referenceMint 2 none, holderRequest,
    .delegate lease (referenceDelegation 1),
    referenceMint 2 (some lease.leaseId),
    .dispatch authorized (referenceAction "req-1" "agent:lamp"),
    .authorize (referenceAction "req-2" "agent:helper")]

def consumesWithdrawn
    (leaseId permitId : String) (e : LeaseStep) : Bool :=
  e.before.withdrawn leaseId && decide (permitId ∈ e.before.minted leaseId) &&
    consumes permitId e

def allowsOrphan (leaseId : String) (e : LeaseStep) : Bool :=
  e.before.withdrawn leaseId && e.before.leases.all.any fun child =>
    e.before.childOf child.leaseId leaseId && allowsUnder child.leaseId e

/-- After a supersession a permit of the superseded lease is consumed, and a
request is allowed under its child. -/
theorem supersession_leaves_permit_and_child :
    ∃ lease authorized permitId,
      (leaseStep referenceEnv referenceWorld (referenceMint 2 none)).2 =
        .minted (.ok lease) ∧
      (leaseStep referenceEnv mintedWorld holderRequest).2 =
        .authorized (.ok authorized) ∧
      (∃ e ∈ (leaseMachine referenceEnv).trace referenceWorld
        (supersedingRun lease authorized),
          consumesWithdrawn lease.leaseId permitId e = true) ∧
      (∃ e ∈ (leaseMachine referenceEnv).trace referenceWorld
        (supersedingRun lease authorized),
          allowsOrphan lease.leaseId e = true) ∧
      ¬ ∀ e ∈ (leaseMachine referenceEnv).trace referenceWorld
        (supersedingRun lease authorized), WithdrawalEffective e := by
  have hrun : (leaseStep referenceEnv referenceWorld
      (referenceMint 2 none)).2.mints (fun lease =>
        (leaseStep referenceEnv mintedWorld holderRequest).2.authorizes
          fun authorized => authorized.permitId.any fun permitId =>
            ((leaseMachine referenceEnv).trace referenceWorld
              (supersedingRun lease authorized)).any
                (consumesWithdrawn lease.leaseId permitId) &&
            ((leaseMachine referenceEnv).trace referenceWorld
              (supersedingRun lease authorized)).any
                (allowsOrphan lease.leaseId)) = true := by
    decide +kernel
  obtain ⟨lease, hlease, hrest⟩ := LeaseReply.exists_of_mints hrun
  obtain ⟨authorized, hanswer, hrest⟩ := LeaseReply.exists_of_authorizes hrest
  obtain ⟨permitId, -, hrest⟩ := (Option.any_eq_true ..).mp hrest
  rw [Bool.and_eq_true, List.any_eq_true, List.any_eq_true] at hrest
  refine ⟨lease, authorized, permitId, hlease, hanswer, hrest.1, hrest.2, ?_⟩
  intro heffective
  obtain ⟨e, he, hconsumed⟩ := hrest.1
  rw [consumesWithdrawn, Bool.and_eq_true, Bool.and_eq_true,
    decide_eq_true_eq] at hconsumed
  obtain ⟨⟨hwithdrawn, hmem⟩, hconsumes⟩ := hconsumed
  have hdead := (heffective e he).permits lease.leaseId lease.leaseId permitId
    hwithdrawn (Or.inl rfl) hmem
  rw [hdead] at hconsumes
  cases hconsumes

end Hydrogenuine.Lease
