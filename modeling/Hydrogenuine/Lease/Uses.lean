import Hydrogenuine.Lease.System

/-!
# Use accounting

The counter of a lease over whole runs.  `Balanced` relates a lease to the
number of allowances issued under it; moves keep it and a spent use advances it
by one, so along every run the allowances and the remaining uses of a lease
add up to its limit.  For a lease together with its children this is only so
while no delegation hands out a use, because `delegate_lease` never debits the
parent.
-/

namespace Hydrogenuine.Lease

open Support Hydrogenuine.Core Gpp

variable {env : LeaseEnv} {s t : LeaseWorld}

/-! ## The balance of one lease -/

/-- The lease had `limit` uses and `allows` of them were spent. -/
structure Balanced (limit : ℤ) (allows : ℕ) (lease : CapabilityLease) :
    Prop where
  uses : lease.remainingUses = some (limit - allows)
  le_limit : (allows : ℤ) ≤ limit
  exhausted : lease.state = .exhausted → (allows : ℤ) = limit
  standing : lease.state.isTerminal = false → 0 < limit → (allows : ℤ) < limit

variable {lease : CapabilityLease} {leaseId : String} {limit : ℤ} {op : LeaseOp}

theorem balanced_of_active (hactive : lease.state = .active)
    (huses : lease.remainingUses = some limit) (hlimit : 0 ≤ limit) :
    Balanced limit 0 lease where
  uses := by simpa using huses
  le_limit := by simpa using hlimit
  exhausted hexhausted := by
    rw [hactive] at hexhausted
    cases hexhausted
  standing _ hpos := by simpa using hpos

theorem Balanced.moves {allows : ℕ} {lease lease' : CapabilityLease}
    (h : Balanced limit allows lease)
    (hrun : Relation.ReflTransGen Moves lease lease') :
    Balanced limit allows lease' := by
  obtain ⟨-, hremaining, hedges⟩ := moves_run hrun
  refine ⟨hremaining.trans h.uses, h.le_limit, ?_, ?_⟩
  · intro hexhausted
    have hsame := moves_run_exhausted hrun hexhausted
    rw [hsame] at hexhausted
    exact h.exhausted hexhausted
  · intro hstanding
    apply h.standing
    by_contra hterminal
    rw [Bool.not_eq_false] at hterminal
    rw [eq_of_edges_of_isTerminal hedges hterminal, hterminal] at hstanding
    cases hstanding

theorem Balanced.spends {allows : ℕ} {lease lease' : CapabilityLease}
    (h : Balanced limit allows lease) (hspends : Spends lease lease') :
    Balanced limit (allows + 1) lease' := by
  obtain ⟨hpos, huses, hexhausted⟩ := hspends.remainingUses_of_some h.uses
  refine ⟨?_, by push_cast; omega, ?_, ?_⟩
  · rw [huses]
    push_cast
    congr 1
    omega
  · intro hstate
    have hzero := hexhausted.mp hstate
    push_cast
    omega
  · intro hstanding _
    have hne : limit - allows - 1 ≠ 0 := by
      intro hzero
      rw [hexhausted.mpr hzero] at hstanding
      cases hstanding
    push_cast
    omega

/-- Along every run from a state in which it is filed, a lease stays balanced
with the allowances issued under it. -/
theorem balanced_run
    (hs : s.Fresh env.host)
    (hget : s.leases.get leaseId = some lease)
    (hbalanced : Balanced limit 0 lease) (ops : List LeaseOp) :
    ∃ filed,
      ((leaseMachine env).final s ops).leases.get leaseId = some filed ∧
        Balanced limit
          (((leaseMachine env).trace s ops).countP (allowsUnder leaseId))
          filed := by
  let Inv : List LeaseStep → LeaseWorld → Prop := fun tr s =>
    s.Fresh env.host ∧ ∃ filed, s.leases.get leaseId = some filed ∧
      Balanced limit (tr.countP (allowsUnder leaseId)) filed
  have hinit : Inv [] s := ⟨hs, lease, hget, hbalanced⟩
  have hstep : ∀ tr s op, Inv tr s →
      Inv (tr ++ [(leaseMachine env).stepAt s op])
        ((leaseMachine env).step s op).1 := by
    rintro tr s op ⟨hs, filed, hfiled, hbal⟩
    obtain ⟨filed', hfiled', ⟨hallows, hspends⟩ | ⟨hallows, hmoves⟩⟩ :=
      leaseStep_lease hs op hfiled
    · refine ⟨leaseStep_fresh hs op, filed', hfiled', ?_⟩
      rw [List.countP_append, List.countP_singleton, if_pos hallows]
      exact hbal.spends hspends
    · refine ⟨leaseStep_fresh hs op, filed', hfiled', ?_⟩
      rw [List.countP_append, List.countP_singleton, if_neg (by simp [hallows])]
      exact hbal.moves hmoves
  exact (Machine.invariant Inv hinit hstep ops).2

/-! ## The mint -/

/-- After a mint that returned, the lease is filed; it may already have been
superseded if it was named as its own predecessor. -/
theorem MintEffect.filed
    {policy : CanonicalPolicy} {supersedesLeaseId : Option String}
    (h : MintEffect env s t policy supersedesLeaseId lease) :
    ∃ filed, t.leases.get lease.leaseId = some filed ∧
      Relation.ReflTransGen Moves lease filed := by
  rcases h.book with hsame | ⟨old, other, eventId, -, hother, hnext, hbook⟩
  · refine ⟨lease, ?_, Relation.ReflTransGen.refl⟩
    rw [hsame, Function.update_self]
  · by_cases hold : lease.leaseId = old
    · subst hold
      rw [Function.update_self, Option.some.injEq] at hother
      subst hother
      refine ⟨lease.advance .superseded eventId, ?_, ?_⟩
      · rw [hbook, Function.update_self]
      · exact Relation.ReflTransGen.single
          ⟨.supersede, .superseded, eventId, by decide, hnext, rfl⟩
    · refine ⟨lease, ?_, Relation.ReflTransGen.refl⟩
      rw [hbook, Function.update_of_ne hold, Function.update_self]

theorem mintEffect_of_reply
    (hs : s.Fresh env.host) {policy : CanonicalPolicy}
    {confirmation : OperatorConfirmation} {supersedesLeaseId : Option String}
    (hreply : (leaseStep env s
      (.mint policy confirmation supersedesLeaseId)).2 = .minted (.ok lease)) :
    MintEffect env s
      (leaseStep env s (.mint policy confirmation supersedesLeaseId)).1 policy
      supersedesLeaseId lease := by
  have houtcome : outcome (mintLease env policy confirmation supersedesLeaseId)
      s = .ok lease := LeaseReply.minted.inj hreply
  rcases (mintLease_ends hs policy confirmation supersedesLeaseId).cases with
    ⟨minted, hminted, -, -, heffect⟩ | ⟨e, hraised, -⟩
  · obtain rfl := Except.ok.inj (hminted.symm.trans houtcome)
    exact heffect
  · have hcontra := hraised.symm.trans houtcome
    cases hcontra

/-! ## Requests and receipts -/

def allowsRequest (requestId : String) (e : LeaseStep) : Bool :=
  allowsWhere (fun decision => decide (decision.requestId = requestId)) e

theorem allowsRequest_eq_true_iff
    {requestId : String} {e : LeaseStep} :
    allowsRequest requestId e = true ↔
      ∃ answer, e.output = .authorized (.ok answer) ∧
        answer.decision.outcome = .allow ∧
        answer.decision.requestId = requestId := by
  rw [allowsRequest, allowsWhere_eq_true_iff]
  simp only [decide_eq_true_eq]

theorem leaseStep_seen (hs : s.Fresh env.host) (op : LeaseOp) :
    s.seenRequestIds ⊆ (leaseStep env s op).1.seenRequestIds := by
  by_cases hop : ∃ request, op = .authorize request
  · obtain ⟨request, rfl⟩ := hop
    rcases leaseStep_authorized hs request with
      ⟨answer, -, hauthorized⟩ | ⟨e, -, hraised⟩
    · rw [hauthorized.seen]
      exact List.subset_cons_self _ _
    · exact hraised.seen
  · have hquiet := leaseStep_quiet hs fun request heq => hop ⟨request, heq⟩
    rw [hquiet.spares.seen]
    exact List.Subset.refl _

/-- A request id is allowed at most once: the allowance records it, and a
recorded id is refused as a replay. -/
theorem allowsRequest_pairwise
    (hs : s.Fresh env.host) (ops : List LeaseOp) (requestId : String) :
    ((leaseMachine env).trace s ops).Pairwise fun e e' =>
      allowsRequest requestId e = true →
        ¬ allowsRequest requestId e' = true := by
  apply Machine.pairwise_of_barrier_of_inv (LeaseWorld.Fresh env.host)
    (fun s : LeaseWorld => requestId ∈ s.seenRequestIds) _ _ _ _ hs
  · intro s op hs
    exact leaseStep_fresh hs op
  · intro s op hs hallows
    obtain ⟨answer, houtput, hallow, rfl⟩ := allowsRequest_eq_true_iff.mp hallows
    obtain ⟨request, _, _, _, -, hauthorized, -⟩ :=
      allowed_of_reply hs houtput hallow
    have hseen := hauthorized.seen
    rw [← hauthorized.answers] at hseen
    exact hseen ▸ List.mem_cons_self
  · intro s op hs hmem
    exact leaseStep_seen hs op hmem
  · intro s op hs hmem hallows
    obtain ⟨answer, houtput, hallow, rfl⟩ := allowsRequest_eq_true_iff.mp hallows
    obtain ⟨request, _, _, _, -, hauthorized, hby⟩ :=
      allowed_of_reply hs houtput hallow
    exact hby.by_lease.unseen (hauthorized.answers ▸ hmem)

theorem receipt_of_authorized
    (hs : s.Fresh env.host) {answer : AuthorizedAction}
    (houtput : (leaseStep env s op).2 = .authorized (.ok answer)) :
    ∃ receipt, (leaseStep env s op).1.receipts = s.receipts ++ [receipt] := by
  obtain ⟨request, rfl⟩ := input_of_output_authorized houtput
  rcases leaseStep_authorized hs request with
    ⟨answer', -, hauthorized⟩ | ⟨e, hreply, -⟩
  · exact hauthorized.receipts
  · have heq := hreply.symm.trans houtput
    cases heq

theorem active_of_allowsUnder
    (hs : s.Fresh env.host)
    (hallows : allowsUnder leaseId ((leaseMachine env).stepAt s op) = true) :
    ∃ filed, s.leases.get leaseId = some filed ∧ filed.state = .active := by
  obtain ⟨request, answer, lease, lease', permitId, -, rfl, hby⟩ :=
    allowed_of_allowsUnder hs hallows
  exact ⟨lease, hby.by_lease.filed, hby.by_lease.active⟩

/-! ## A standing lease -/

section Mint

variable (env : LeaseEnv) (situation : Dict String SituationFact)
  (gpp : PermitAuthority) (before : List LeaseOp) (policy : CanonicalPolicy)
  (confirmation : OperatorConfirmation) (supersedesLeaseId : Option String)

def mintStep : LeaseStep :=
  (leaseMachine env).stepAt
    ((leaseMachine env).final (.init situation gpp) before)
    (.mint policy confirmation supersedesLeaseId)

theorem balanced_mintStep
    {lease : CapabilityLease} {limit : ℤ}
    (hminted : (mintStep env situation gpp before policy confirmation
      supersedesLeaseId).output = .minted (.ok lease))
    (hlimit : policy.useLimit = some limit) (hnonneg : 0 ≤ limit) :
    ∃ filed, (mintStep env situation gpp before policy confirmation
        supersedesLeaseId).after.leases.get lease.leaseId = some filed ∧
      Balanced limit 0 filed := by
  have heffect := mintEffect_of_reply
    (fresh_final env situation gpp before) hminted
  obtain ⟨filed, hfiled, hmoves⟩ := heffect.filed
  have hactive := balanced_of_active heffect.minted.state
    (heffect.minted.uses.trans hlimit) hnonneg
  exact ⟨filed, hfiled, hactive.moves hmoves⟩

/-- Use accounting of a lease minted with a positive limit, over every run that
follows the mint: the allowances under it and its remaining uses add up to the
limit, it is exhausted only without and stands only with a use left, it is
active at every allowance, no request is allowed twice, and every authorization
that returns appends one receipt. -/
theorem lease_use_accounting
    (lease : CapabilityLease) (limit : ℤ)
    (hminted : (mintStep env situation gpp before policy confirmation
      supersedesLeaseId).output = .minted (.ok lease))
    (hlimit : policy.useLimit = some limit) (hpos : 0 < limit)
    (ops : List LeaseOp) :
    let start := (mintStep env situation gpp before policy confirmation
      supersedesLeaseId).after
    let run := (leaseMachine env).trace start ops
    (∃ filed uses,
      ((leaseMachine env).final start ops).leases.get lease.leaseId =
          some filed ∧
        filed.remainingUses = some uses ∧
        (run.countP (allowsUnder lease.leaseId) : ℤ) + uses = limit ∧
        0 ≤ uses ∧ (filed.state = .exhausted → uses = 0) ∧
        (filed.state = .active ∨ filed.state = .suspended → 0 < uses)) ∧
      (∀ e ∈ run, allowsUnder lease.leaseId e = true →
        ∃ filed, e.before.leases.get lease.leaseId = some filed ∧
          filed.state = .active) ∧
      (∀ requestId, run.countP (allowsRequest requestId) ≤ 1) ∧
      ∀ e ∈ run, ∀ answer, e.output = .authorized (.ok answer) →
        ∃ receipt, e.after.receipts = e.before.receipts ++ [receipt] := by
  intro start run
  have hstart : start.Fresh env.host :=
    leaseStep_fresh (fresh_final env situation gpp before) _
  have haround : ∀ e ∈ run, e.before.Fresh env.host ∧ e.after.Fresh env.host :=
    Machine.invariant_around (LeaseWorld.Fresh env.host) hstart
      (fun s op hs => leaseStep_fresh hs op) ops
  refine ⟨?_, ?_, ?_, ?_⟩
  · obtain ⟨filed₀, hfiled₀, hbalanced₀⟩ := balanced_mintStep env situation gpp
      before policy confirmation supersedesLeaseId hminted hlimit hpos.le
    obtain ⟨filed, hfiled, hbalanced⟩ :=
      balanced_run hstart hfiled₀ hbalanced₀ ops
    have hle := hbalanced.le_limit
    refine ⟨filed, _, hfiled, hbalanced.uses, add_sub_cancel _ _, by omega, ?_,
      ?_⟩
    · intro hexhausted
      have hspent := hbalanced.exhausted hexhausted
      omega
    · intro hlive
      have hterminal : filed.state.isTerminal = false := by
        rcases hlive with hstate | hstate
        · rw [hstate]
          rfl
        · rw [hstate]
          rfl
      have hlt := hbalanced.standing hterminal hpos
      omega
  · intro e he hallows
    have hbefore := (haround e he).1
    rw [Machine.mem_trace_eq_stepAt he] at hallows
    exact active_of_allowsUnder hbefore hallows
  · intro requestId
    exact countP_le_one_of_pairwise (allowsRequest_pairwise hstart ops requestId)
  · intro e he answer houtput
    have hbefore := (haround e he).1
    rw [Machine.mem_trace_eq_stepAt he] at houtput ⊢
    exact receipt_of_authorized hbefore houtput

end Mint

def referenceMintStep : LeaseStep :=
  mintStep referenceEnv Dict.empty (.init .empty) [] (referencePolicy 2)
    (confirmationOf referenceHost (referencePolicy 2)) none

theorem lease_use_accounting_reference :
    ∃ lease, referenceMintStep.output = .minted (.ok lease) ∧
      ∃ filed uses,
        ((leaseMachine referenceEnv).final referenceMintStep.after
          [.authorize (referenceAction "req-1" "agent:lamp")]).leases.get
            lease.leaseId = some filed ∧
        filed.remainingUses = some uses ∧ 1 + uses = 2 := by
  have hrun : referenceMintStep.output.mints (fun lease =>
      ((leaseMachine referenceEnv).trace referenceMintStep.after
        [.authorize (referenceAction "req-1" "agent:lamp")]).countP
          (allowsUnder lease.leaseId) == 1) = true := by
    decide +kernel
  obtain ⟨lease, hlease, hcount⟩ := LeaseReply.exists_of_mints hrun
  obtain ⟨⟨filed, uses, hfiled, huses, hsum, -⟩, -⟩ := lease_use_accounting
    referenceEnv Dict.empty (.init .empty) [] (referencePolicy 2) _ none lease 2
    hlease rfl (by decide) [.authorize (referenceAction "req-1" "agent:lamp")]
  refine ⟨lease, hlease, filed, uses, hfiled, huses, ?_⟩
  have hone := beq_iff_eq.mp hcount
  rw [referenceMintStep] at hone
  rw [← hsum, hone]
  rfl

/-! ## A lease and its children -/

def inFamily (s : LeaseWorld) (leaseId : String) (decision : Decision) : Bool :=
  match decision.leaseId with
  | some id =>
      decide (id = leaseId) ||
        decide ((s.leases.get id).bind CapabilityLease.parentLeaseId =
          some leaseId)
  | none => false

def allowsFamily (leaseId : String) (e : LeaseStep) : Bool :=
  allowsWhere (inFamily e.before leaseId) e

/-- The call is no accepted delegation from the lease that hands out a use. -/
def HandsOutNoUse (leaseId : String) (_ : LeaseWorld) : LeaseOp → Prop
  | .delegate parent args =>
      parent.leaseId = leaseId → DelegationAccepted parent args →
        ∃ n, args.remainingUses = some n ∧ n ≤ 0
  | _ => True

def ChildrenIdle (leaseId : String) (s : LeaseWorld) : Prop :=
  ∀ id child, s.leases.get id = some child →
    child.parentLeaseId = some leaseId →
      ∃ n, child.remainingUses = some n ∧ n ≤ 0

theorem moves_run_parent
    {lease lease' : CapabilityLease}
    (hrun : Relation.ReflTransGen Moves lease lease') :
    lease'.parentLeaseId = lease.parentLeaseId := by
  have hterms := congrArg CapabilityLease.parentLeaseId (moves_run hrun).1
  exact hterms

theorem childrenIdle_step
    (hs : s.Fresh env.host)
    (hidle : ChildrenIdle leaseId s) (hguard : HandsOutNoUse leaseId s op) :
    ChildrenIdle leaseId (leaseStep env s op).1 := by
  intro id child' hchild' hparent'
  cases hget : s.leases.get id with
  | some child =>
      obtain ⟨filed, hfiled, hchange⟩ := leaseStep_lease hs op hget
      obtain rfl := Option.some.inj (hfiled.symm.trans hchild')
      rcases hchange with ⟨-, hspends⟩ | ⟨-, hmoves⟩
      · have hterms := congrArg CapabilityLease.parentLeaseId hspends.terms_eq
        have hparent : child.parentLeaseId = some leaseId :=
          hterms.symm.trans hparent'
        obtain ⟨n, huses, hle⟩ := hidle id child hget hparent
        have hpos := (hspends.remainingUses_of_some huses).1
        omega
      · rw [moves_run_parent hmoves] at hparent'
        obtain ⟨n, huses, hle⟩ := hidle id child hget hparent'
        exact ⟨n, (moves_run hmoves).2.1.trans huses, hle⟩
  | none =>
      obtain ⟨entered, hopens, hmoves⟩ := leaseStep_entered hs op hget hchild'
      rw [moves_run_parent hmoves] at hparent'
      have huses' := (moves_run hmoves).2.1
      cases op with
      | mint policy confirmation supersedesLeaseId =>
          rw [hopens.parent] at hparent'
          cases hparent'
      | delegate parent args =>
          have hid : parent.leaseId = leaseId :=
            Option.some.inj (hopens.parent.symm.trans hparent')
          obtain ⟨n, huses, hle⟩ := hguard hid hopens.accepted
          exact ⟨n, huses'.trans (hopens.uses.trans huses), hle⟩
      | _ => exact hopens.elim

theorem allowsFamily_eq
    (hs : s.Fresh env.host)
    (hidle : ChildrenIdle leaseId s) (op : LeaseOp) :
    allowsFamily leaseId ((leaseMachine env).stepAt s op) =
      allowsUnder leaseId ((leaseMachine env).stepAt s op) := by
  rw [Bool.eq_iff_iff]
  constructor
  · intro hfamily
    obtain ⟨answer, houtput, hallow, htest⟩ :=
      allowsWhere_eq_true_iff.mp hfamily
    obtain ⟨request, lease, lease', permitId, -, -, hby⟩ :=
      allowed_of_reply hs houtput hallow
    simp only [inFamily, hby.leaseId, Bool.or_eq_true,
      decide_eq_true_eq] at htest
    rcases htest with hself | hchild
    · exact allowsUnder_eq_true_iff.mpr
        ⟨answer, houtput, hallow, hby.leaseId.trans (congrArg some hself)⟩
    · have hparent : lease.parentLeaseId = some leaseId := by
        have hfiled : s.leases.get lease.leaseId = some lease :=
          hby.by_lease.filed
        exact (congrArg (·.bind CapabilityLease.parentLeaseId)
          hfiled).symm.trans hchild
      obtain ⟨n, huses, hle⟩ := hidle _ _ hby.by_lease.filed hparent
      have hpos := hby.by_lease.uses n huses
      omega
  · intro hunder
    obtain ⟨answer, houtput, hallow, hlease⟩ :=
      allowsUnder_eq_true_iff.mp hunder
    refine allowsWhere_eq_true_iff.mpr ⟨answer, houtput, hallow, ?_⟩
    simp [inFamily, hlease]

/-- Over a run in which the lease hands out no use, the family is allowed
exactly what the lease itself is allowed. -/
theorem countP_allowsFamily
    (hs : s.Fresh env.host)
    (hidle : ChildrenIdle leaseId s) (ops : List LeaseOp)
    (hguard : (leaseMachine env).Guarded (HandsOutNoUse leaseId) s ops) :
    ((leaseMachine env).trace s ops).countP (allowsFamily leaseId) =
      ((leaseMachine env).trace s ops).countP (allowsUnder leaseId) := by
  let Inv : List LeaseStep → LeaseWorld → Prop := fun tr s =>
    s.Fresh env.host ∧ ChildrenIdle leaseId s ∧
      tr.countP (allowsFamily leaseId) = tr.countP (allowsUnder leaseId)
  have hinit : Inv [] s := ⟨hs, hidle, rfl⟩
  have hstep : ∀ tr s op, Inv tr s → HandsOutNoUse leaseId s op →
      Inv (tr ++ [(leaseMachine env).stepAt s op])
        ((leaseMachine env).step s op).1 := by
    rintro tr s op ⟨hs, hidle, hcount⟩ hop
    refine ⟨leaseStep_fresh hs op, childrenIdle_step hs hidle hop, ?_⟩
    rw [List.countP_append, List.countP_append, hcount, List.countP_singleton,
      List.countP_singleton, allowsFamily_eq hs hidle op]
  exact (Machine.invariant_of_guarded Inv hinit hstep ops hguard).2.2

theorem countP_allowsUnder_of_unused
    (hs : s.Fresh env.host) (leaseId : String) (ops : List LeaseOp)
    (hunused : ((leaseMachine env).final s ops).leases.get leaseId = none) :
    ((leaseMachine env).trace s ops).countP (allowsUnder leaseId) = 0 := by
  let Inv : List LeaseStep → LeaseWorld → Prop := fun tr s =>
    s.Fresh env.host ∧ (s.leases.get leaseId = none →
      tr.countP (allowsUnder leaseId) = 0)
  have hinit : Inv [] s := ⟨hs, fun _ => rfl⟩
  have hstep : ∀ tr s op, Inv tr s →
      Inv (tr ++ [(leaseMachine env).stepAt s op])
        ((leaseMachine env).step s op).1 := by
    rintro tr s op ⟨hs, hcount⟩
    refine ⟨leaseStep_fresh hs op, fun hafter => ?_⟩
    have hbefore : s.leases.get leaseId = none := by
      by_contra hsome
      obtain ⟨lease, hlease⟩ := Option.ne_none_iff_exists'.mp hsome
      obtain ⟨lease', hlease', -⟩ := leaseStep_lease hs op hlease
      have hcontra := hlease'.symm.trans hafter
      cases hcontra
    have hnot : ¬ allowsUnder leaseId ((leaseMachine env).stepAt s op) =
        true := by
      intro hallows
      obtain ⟨filed, hfiled, -⟩ := active_of_allowsUnder hs hallows
      rw [hbefore] at hfiled
      cases hfiled
    rw [List.countP_append, List.countP_singleton, if_neg hnot, hcount hbefore]
  exact (Machine.invariant Inv hinit hstep ops).2 hunused

/-- Over every run in which no accepted delegation from it hands out a use, the
allowances under a lease and its children stay within the limit of the policy
the lease was minted from. -/
theorem family_within_limit
    (env : LeaseEnv) (situation : Dict String SituationFact)
    (gpp : PermitAuthority) (before : List LeaseOp) (policy : CanonicalPolicy)
    (confirmation : OperatorConfirmation) (supersedesLeaseId : Option String)
    (lease : CapabilityLease) (limit : ℤ)
    (hminted : (mintStep env situation gpp before policy confirmation
      supersedesLeaseId).output = .minted (.ok lease))
    (hlimit : policy.useLimit = some limit) (hnonneg : 0 ≤ limit)
    (ops : List LeaseOp)
    (hguard : (leaseMachine env).Guarded (HandsOutNoUse lease.leaseId)
      (.init situation gpp)
      (before ++ .mint policy confirmation supersedesLeaseId :: ops)) :
    (((leaseMachine env).trace (.init situation gpp)
      (before ++ .mint policy confirmation supersedesLeaseId :: ops)).countP
        (allowsFamily lease.leaseId) : ℤ) ≤ limit := by
  have hinit := LeaseWorld.fresh_init env.host situation gpp
  have hreached := fresh_final env situation gpp before
  have heffect := mintEffect_of_reply hreached hminted
  obtain ⟨filed, hfiled, hbalanced⟩ := balanced_mintStep env situation gpp
    before policy confirmation supersedesLeaseId hminted hlimit hnonneg
  obtain ⟨_, -, hrun⟩ := balanced_run
    (leaseStep_fresh hreached _) hfiled hbalanced ops
  have hidle : ChildrenIdle lease.leaseId (.init situation gpp) := by
    intro id child hget
    cases hget
  have hbefore := countP_allowsUnder_of_unused hinit lease.leaseId before
    heffect.unused
  have hmint : allowsUnder lease.leaseId (mintStep env situation gpp before
      policy confirmation supersedesLeaseId) = false := by
    rw [allowsUnder, allowsWhere, hminted]
    rfl
  rw [countP_allowsFamily hinit hidle _ hguard, Machine.trace_append,
    List.countP_append, hbefore, zero_add, Machine.trace]
  refine (congrArg (Nat.cast : ℕ → ℤ) (List.countP_cons_of_neg ?_)).trans_le
    hrun.le_limit
  intro hallows
  rw [mintStep] at hmint
  rw [hmint] at hallows
  cases hallows

def familyRequests : List LeaseOp :=
  [.authorize (referenceAction "req-1" "agent:lamp"),
    .authorize (referenceAction "req-2" "agent:helper")]

theorem family_within_limit_reference :
    ∃ lease, referenceMintStep.output = .minted (.ok lease) ∧
      (((leaseMachine referenceEnv).trace referenceWorld
        (referenceMint 2 none :: .delegate lease (referenceDelegation 0) ::
          familyRequests)).countP (allowsFamily lease.leaseId) : ℤ) ≤ 2 := by
  have hrun : referenceMintStep.output.mints (fun _ => true) = true := by
    decide +kernel
  obtain ⟨lease, hlease, -⟩ := LeaseReply.exists_of_mints hrun
  refine ⟨lease, hlease, family_within_limit referenceEnv Dict.empty
    (.init .empty) [] (referencePolicy 2) _ none lease 2 hlease rfl (by decide)
    (.delegate lease (referenceDelegation 0) :: familyRequests) ?_⟩
  intro e he
  have hinput := Machine.input_mem_of_mem_trace he
  simp only [familyRequests, List.nil_append, List.mem_cons, List.not_mem_nil,
    or_false] at hinput
  rcases hinput with hop | hop | hop | hop
  · rw [hop]
    trivial
  · rw [hop]
    exact fun _ _ => ⟨0, rfl, le_rfl⟩
  · rw [hop]
    trivial
  · rw [hop]
    trivial

/-- One use is minted, one use of it is delegated, and two requests are
allowed. -/
theorem delegation_amplifies_uses :
    ∃ lease,
      (mintStep referenceEnv Dict.empty (.init .empty) [] (referencePolicy 1)
        (confirmationOf referenceHost (referencePolicy 1)) none).output =
          .minted (.ok lease) ∧
      (referencePolicy 1).useLimit = some 1 ∧
      ¬ (((leaseMachine referenceEnv).trace referenceWorld
        (referenceMint 1 none :: .delegate lease (referenceDelegation 1) ::
          familyRequests)).countP (allowsFamily lease.leaseId) : ℤ) ≤ 1 := by
  have hrun : (mintStep referenceEnv Dict.empty (.init .empty) []
      (referencePolicy 1) (confirmationOf referenceHost (referencePolicy 1))
      none).output.mints (fun lease =>
        ((leaseMachine referenceEnv).trace referenceWorld
          (referenceMint 1 none :: .delegate lease (referenceDelegation 1) ::
            familyRequests)).countP (allowsFamily lease.leaseId) == 2) =
      true := by
    decide +kernel
  obtain ⟨lease, hlease, hcount⟩ := LeaseReply.exists_of_mints hrun
  refine ⟨lease, hlease, rfl, ?_⟩
  rw [beq_iff_eq.mp hcount]
  decide

end Hydrogenuine.Lease
