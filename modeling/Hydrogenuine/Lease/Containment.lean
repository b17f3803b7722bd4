import Hydrogenuine.Lease.Lifetime

/-!
# What a delegated lease allows

A child narrows its parent in every respect that `delegate_lease` checks: the
actions, the objects, the purposes, the validity window and the uses.  It is
anchored at the monotonic reading that the caller hands in, and this reading is
compared with nothing: a child anchored before its parent allows requests at
readings at which the parent refuses to decide.
-/

namespace Hydrogenuine.Lease

open Support Hydrogenuine.Core Gpp

variable {env : LeaseEnv} {s t : LeaseWorld}

/-! ## The child as it is drafted -/

theorem scope_of_subset
    {host : Host} {child parent scope : List String} {label : String}
    (h : subset host child parent label = .ok scope) : scope = child := by
  unfold subset at h
  dsimp only at h
  split_ifs at h
  exact (Except.ok.inj h).symm

/-- What a child takes over from its parent, and what its arguments narrow. -/
structure Contained
    (parent : CapabilityLease) (args : DelegationArgs)
    (child : CapabilityLease) : Prop where
  hash : child.policyHash = parent.policyHash
  anchor : child.issuedAtMonotonicAnchor = args.nowMonotonic
  active : parent.state = .active
  actions : child.actionScope ⊆ parent.actionScope
  objects : child.objectScope ⊆ parent.objectScope
  purposes : Narrows child.purposeScope parent.purposeScope
  starts : parent.notBefore ≤ child.notBefore
  ends : child.expiresAt ≤ parent.expiresAt
  uses : ∀ n, parent.remainingUses = some n →
    ∃ m, child.remainingUses = some m ∧ m ≤ n

theorem contained_of_unrefused
    {parent : CapabilityLease} {args : DelegationArgs}
    {actions objects purposes : List String} {leaseId handle : String}
    (hunrefused : delegationRefusal parent args = none)
    (hactions : actions ⊆ parent.actionScope)
    (hobjects : objects ⊆ parent.objectScope)
    (hpurposes : Narrows purposes parent.purposeScope) :
    Contained parent args
      (draftChild parent args actions objects purposes leaseId handle).opened := by
  unfold delegationRefusal at hunrefused
  dsimp only at hunrefused
  split_ifs at hunrefused with _ hactive _ hlonger _
  refine ⟨rfl, rfl, not_not.mp hactive, hactions, hobjects, hpurposes, ?_,
    String.not_lt.mp hlonger, ?_⟩
  · change parent.notBefore ≤ if parent.notBefore < args.nowWall then args.nowWall
      else parent.notBefore
    split_ifs with hlate
    · exact Std.le_of_lt hlate
    · exact String.le_refl _
  · intro n hn
    change ∃ m, args.remainingUses = some m ∧ m ≤ n
    rw [hn] at hunrefused
    cases hasked : args.remainingUses with
    | none =>
        rw [hasked] at hunrefused
        cases hunrefused
    | some m =>
        rw [hasked] at hunrefused
        dsimp only at hunrefused
        split_ifs at hunrefused with hmore
        exact ⟨m, rfl, not_lt.mp hmore⟩

theorem delegateLease_contained
    (parent : CapabilityLease) (args : DelegationArgs) :
    Ends (delegateLease env parent args) s
      (fun child _ => Contained parent args child) (fun _ _ => True) := by
  unfold delegateLease
  split
  · exact ends_throw trivial
  next hunrefused =>
    apply ends_bind
    apply ends_drawUuid
    apply ends_bind
    refine ends_raising (fun actions hactions => ?_) (fun _ _ => trivial)
    apply ends_bind
    refine ends_raising (fun objects hobjects => ?_) (fun _ _ => trivial)
    apply ends_bind
    refine ends_raising (fun purposes hpurposes => ?_) (fun _ _ => trivial)
    apply ends_bind
    apply ends_drawUuid
    dsimp only
    have hcontained := @contained_of_unrefused parent args actions objects purposes
      (leaseIdOf (env.host.uuidHex s.uuids)) (env.host.uuidHex (s.uuids + 1))
      hunrefused (scope_of_subset hactions ▸ (narrows_of_subset hactions).2)
      (scope_of_subset hobjects ▸ (narrows_of_subset hobjects).2)
      (scope_of_subset hpurposes ▸ narrows_of_subset hpurposes)
    generalize hdraft : draftChild parent args actions objects purposes
      (leaseIdOf (env.host.uuidHex s.uuids))
      (env.host.uuidHex (s.uuids + 1)) = draft at hcontained ⊢
    obtain ⟨first, second, hopen⟩ := @openLease_eq draft
      (by rw [← hdraft]; rfl) (by rw [← hdraft]; rfl) "delegation.submitted"
      "delegation.derived_from_parent" args.nowWall
      ("parent=" ++ parent.leaseId)
    rw [hopen]
    apply ends_bind
    apply ends_pure
    apply ends_bind
    apply ends_putLease
    apply ends_bind
    apply ends_putLease
    exact ends_pure hcontained

/-! ## Uses over a run -/

/-- A limited lease stays limited, by no more than before. -/
def UsesKept (lease lease' : CapabilityLease) : Prop :=
  ∀ n, lease.remainingUses = some n →
    ∃ m, lease'.remainingUses = some m ∧ m ≤ n

theorem UsesKept.trans
    {a b c : CapabilityLease} (hab : UsesKept a b) (hbc : UsesKept b c) :
    UsesKept a c := by
  intro n hn
  obtain ⟨m, hm, hmn⟩ := hab n hn
  obtain ⟨k, hk, hkm⟩ := hbc m hm
  exact ⟨k, hk, hkm.trans hmn⟩

theorem run_usesKept
    (hs : s.Fresh env.host) {leaseId : String} {lease : CapabilityLease}
    (hget : s.leases.get leaseId = some lease) (ops : List LeaseOp) :
    ∃ lease', ((leaseMachine env).final s ops).leases.get leaseId = some lease' ∧
      lease'.terms = lease.terms ∧ UsesKept lease lease' := by
  let Inv : List LeaseStep → LeaseWorld → Prop := fun _ s =>
    s.Fresh env.host ∧ ∃ lease', s.leases.get leaseId = some lease' ∧
      lease'.terms = lease.terms ∧ UsesKept lease lease'
  have hstep : ∀ tr s op, Inv tr s →
      Inv (tr ++ [(leaseMachine env).stepAt s op])
        ((leaseMachine env).step s op).1 := by
    rintro tr s op ⟨hs, mid, hmid, hterms, hkept⟩
    refine ⟨leaseStep_fresh hs op, ?_⟩
    obtain ⟨lease', hget', ⟨-, hspends⟩ | ⟨-, hmoves⟩⟩ := leaseStep_lease hs op hmid
    · refine ⟨lease', hget', hspends.terms_eq.trans hterms, hkept.trans ?_⟩
      intro n hn
      exact ⟨n - 1, (hspends.remainingUses_of_some hn).2.1, by omega⟩
    · obtain ⟨hmoved, huses, -⟩ := moves_run hmoves
      refine ⟨lease', hget', hmoved.trans hterms, hkept.trans ?_⟩
      intro n hn
      exact ⟨n, huses.trans hn, le_rfl⟩
  exact (Machine.invariant Inv ⟨hs, lease, hget, rfl, fun n hn => ⟨n, hn, le_rfl⟩⟩
    hstep ops).2

/-! ## What the child allows -/

/-- What a later record of a contained child allows, its parent allows at the same
reading, unless that reading is before the anchor of the parent. -/
theorem Contained.admits
    {parent child child' : CapabilityLease} {args : DelegationArgs}
    (h : Contained parent args child) (hterms : child'.terms = child.terms)
    (huses : UsesKept child child') {request : ActionRequest}
    {policy : CanonicalPolicy} {facts : Snapshot} {nowWall : String}
    {nowMonotonic : ℚ} {seen : List String} {host : Host}
    (hadmits : Admits host request child' policy facts nowWall nowMonotonic seen)
    (hanchor : parent.issuedAtMonotonicAnchor ≤ nowMonotonic) :
    Admits host { request with subject := parent.subject } parent policy facts
      nowWall nowMonotonic seen := by
  have hfield {α : Type} (f : CapabilityLease → α)
      (hf : ∀ lease : CapabilityLease, f lease = f lease.terms) :
      f child' = f child := by
    rw [hf child', hterms, ← hf child]
  have hhash := hfield CapabilityLease.policyHash fun _ => rfl
  have hactions := hfield CapabilityLease.actionScope fun _ => rfl
  have hobjects := hfield CapabilityLease.objectScope fun _ => rfl
  have hpurposes := hfield CapabilityLease.purposeScope fun _ => rfl
  have hstarts := hfield CapabilityLease.notBefore fun _ => rfl
  have hends := hfield CapabilityLease.expiresAt fun _ => rfl
  refine
    { unseen := hadmits.unseen
      anchored := hanchor
      hash := h.hash.symm.trans (hhash.symm.trans hadmits.hash)
      active := h.active
      started := String.le_trans h.starts (hstarts ▸ hadmits.started)
      unexpired := ?_
      uses := ?_
      subject := rfl
      action := h.actions (hactions ▸ hadmits.action)
      object := h.objects (hobjects ▸ hadmits.object)
      purpose := Or.inr (h.purposes.2 ?_)
      limits := hadmits.limits
      condition := hadmits.condition
      required := hadmits.required }
  · exact Std.lt_of_lt_of_le hadmits.unexpired (hends ▸ h.ends)
  · intro n hn
    obtain ⟨m, hm, hmn⟩ := h.uses n hn
    obtain ⟨k, hk, hkm⟩ := huses m hm
    have hpos := hadmits.uses k hk
    omega
  · rw [← hpurposes]
    refine hadmits.purpose.resolve_left fun hempty => ?_
    exact h.purposes.1 (hpurposes ▸ hempty)

theorem delegateLease_filed
    (hs : s.Fresh env.host) {parent child : CapabilityLease} {args : DelegationArgs}
    (hdelegated : outcome (delegateLease env parent args) s = .ok child) :
    Contained parent args child ∧
      (finalState (delegateLease env parent args) s).leases.get child.leaseId =
        some child := by
  have hends := ends_and (delegateLease_ends hs parent args)
    (delegateLease_contained parent args)
  rcases hends.cases with ⟨other, hother, ⟨-, -, -, -, -, hbook⟩, hcontained⟩ |
    ⟨e, hraised, -⟩
  · obtain rfl := Except.ok.inj (hdelegated.symm.trans hother)
    exact ⟨hcontained, by rw [hbook, Function.update_self]⟩
  · cases hdelegated.symm.trans hraised

/-- Whatever a child of `delegate_lease` allows at any later point of a run, its
parent as it was at the delegation allows for its own subject exactly when the
monotonic reading is not before its anchor; and always, if the reading handed to
`delegate_lease` was not. -/
theorem delegated_within_parent
    (env : LeaseEnv) (situation : Dict String SituationFact)
    (gpp : PermitAuthority) (ops later : List LeaseOp)
    (parent : CapabilityLease) (args : DelegationArgs)
    (child child' : CapabilityLease)
    (hdelegated : outcome (delegateLease env parent args)
      ((leaseMachine env).final (.init situation gpp) ops) = .ok child)
    (hlater : ((leaseMachine env).final (.init situation gpp)
      (ops ++ .delegate parent args :: later)).leases.get child.leaseId =
        some child')
    (request : ActionRequest) (policy : Option CanonicalPolicy) (facts : Snapshot)
    (nowWall : String) (nowMonotonic : ℚ) (seen reasons : List String)
    (hallow : verdict env.host request (some child') policy facts nowWall
      nowMonotonic seen = .ok (.allow, reasons)) :
    ((∃ reasons', verdict env.host { request with subject := parent.subject }
        (some parent) policy facts nowWall nowMonotonic seen =
          .ok (.allow, reasons')) ↔
      parent.issuedAtMonotonicAnchor ≤ nowMonotonic) ∧
    (parent.issuedAtMonotonicAnchor ≤ args.nowMonotonic →
      ∃ reasons', verdict env.host { request with subject := parent.subject }
        (some parent) policy facts nowWall nowMonotonic seen =
          .ok (.allow, reasons')) := by
  have hs := fresh_final env situation gpp ops
  rw [Machine.final_append] at hlater
  generalize (leaseMachine env).final (.init situation gpp) ops = s at *
  obtain ⟨hcontained, hget⟩ := delegateLease_filed hs hdelegated
  obtain ⟨last, hlast, hterms, huses⟩ := run_usesKept
    (leaseStep_fresh hs (.delegate parent args)) hget later
  obtain rfl := Option.some.inj (hlast.symm.trans hlater)
  obtain ⟨_, p, hlease, rfl, hadmits, -⟩ := exists_of_verdict_allow hallow
  obtain rfl := Option.some.inj hlease
  have hparent (hanchor : parent.issuedAtMonotonicAnchor ≤ nowMonotonic) :=
    hcontained.admits hterms huses hadmits hanchor
  refine ⟨⟨?_, fun hanchor => ⟨[], verdict_allow_iff.mpr ⟨hparent hanchor, rfl⟩⟩⟩,
    fun hreading => ⟨[], verdict_allow_iff.mpr ⟨hparent ?_, rfl⟩⟩⟩
  · rintro ⟨_, hverdict⟩
    exact (verdict_allow_iff.mp hverdict).1.anchored
  · have hanchor : last.issuedAtMonotonicAnchor = args.nowMonotonic :=
      (congrArg CapabilityLease.issuedAtMonotonicAnchor hterms).trans
        hcontained.anchor
    exact hreading.trans (hanchor ▸ hadmits.anchored)

def tenEnv : LeaseEnv :=
  { referenceEnv with clock := fun _ => ("2026-03-01T12:00:00.000Z", 10) }

def tenParent : CapabilityLease :=
  (draftLease (referencePolicy 1)
    ((referencePolicy 1).canonicalPolicyHash referenceHost) "agent:lamp" "lease_0"
    "1" ("2026-03-01T12:00:00.000Z", 10) none).opened

def zeroChild : CapabilityLease :=
  (draftChild tenParent (referenceDelegation 1) ["lamp.on"] ["lamp-1"] ["light"]
    "lease_3" "4").opened

theorem tenParent_run :
    ((leaseMachine tenEnv).final referenceWorld [referenceMint 1 none]).leases.get
        "lease_0" = some tenParent ∧
      outcome (delegateLease tenEnv tenParent (referenceDelegation 1))
        ((leaseMachine tenEnv).final referenceWorld [referenceMint 1 none]) =
          .ok zeroChild ∧
      ((leaseMachine tenEnv).final referenceWorld ([referenceMint 1 none] ++
        [.delegate tenParent (referenceDelegation 1)])).leases.get "lease_3" =
          some zeroChild := by
  decide +kernel

theorem delegated_within_parent_ten :
    ((∃ reasons', verdict referenceHost
        { referenceAction "r1" "agent:helper" with subject := "agent:lamp" }
        (some tenParent) (some (referencePolicy 1)) Dict.empty
        "2026-03-01T12:00:00.000Z" 12 [] = .ok (.allow, reasons')) ↔
      (10 : ℚ) ≤ 12) ∧
    ((10 : ℚ) ≤ 0 → ∃ reasons', verdict referenceHost
        { referenceAction "r1" "agent:helper" with subject := "agent:lamp" }
        (some tenParent) (some (referencePolicy 1)) Dict.empty
        "2026-03-01T12:00:00.000Z" 12 [] = .ok (.allow, reasons')) :=
  delegated_within_parent tenEnv Dict.empty (.init .empty) [referenceMint 1 none] []
    tenParent (referenceDelegation 1) zeroChild zeroChild tenParent_run.2.1
    tenParent_run.2.2 (referenceAction "r1" "agent:helper")
    (some (referencePolicy 1)) Dict.empty "2026-03-01T12:00:00.000Z" 12 [] []
    (by decide +kernel)

/-- At a reading of five the child, delegated at zero, allows what the parent, minted at
ten, refuses to decide. -/
theorem child_outreaches_parent :
    ¬ ∀ (env : LeaseEnv) (situation : Dict String SituationFact)
      (gpp : PermitAuthority) (ops later : List LeaseOp)
      (parent : CapabilityLease) (args : DelegationArgs)
      (child child' : CapabilityLease),
      outcome (delegateLease env parent args)
        ((leaseMachine env).final (.init situation gpp) ops) = .ok child →
      ((leaseMachine env).final (.init situation gpp)
        (ops ++ .delegate parent args :: later)).leases.get child.leaseId =
          some child' →
      ∀ (request : ActionRequest) (policy : Option CanonicalPolicy)
        (facts : Snapshot) (nowWall : String) (nowMonotonic : ℚ)
        (seen reasons : List String),
        verdict env.host request (some child') policy facts nowWall nowMonotonic
          seen = .ok (.allow, reasons) →
        ∃ reasons', verdict env.host { request with subject := parent.subject }
          (some parent) policy facts nowWall nowMonotonic seen =
            .ok (.allow, reasons') := by
  intro hwithin
  obtain ⟨reasons, hallow⟩ := hwithin tenEnv Dict.empty (.init .empty)
    [referenceMint 1 none] [] tenParent (referenceDelegation 1) zeroChild zeroChild
    tenParent_run.2.1 tenParent_run.2.2 (referenceAction "r1" "agent:helper")
    (some (referencePolicy 1)) Dict.empty "2026-03-01T12:00:00.000Z" 5 [] []
    (by decide +kernel)
  have hanchored := (verdict_allow_iff.mp hallow).1.anchored
  have hearly : ¬ tenParent.issuedAtMonotonicAnchor ≤ 5 := by decide +kernel
  exact hearly hanchored

end Hydrogenuine.Lease
