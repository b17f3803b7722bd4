import Hydrogenuine.Lease.System

/-!
# Leases over their whole lifetime

Every call enters leases active and otherwise only moves them along the
transition table or spends their uses.  Over arbitrary runs it follows that a
lease walks along edges of the table, never leaves a terminal state and keeps
its terms; and that the policy it refers to by hash keeps its limit, as long as
the hash does not confuse two of the policies that were minted.
-/

namespace Hydrogenuine.Lease

open Support Hydrogenuine.Core Gpp

variable {env : LeaseEnv} {s t : LeaseWorld}

/-! ## One lease over a run -/

/-- A later record of the same lease. -/
structure LaterRecord (lease lease' : CapabilityLease) : Prop where
  edges : Relation.ReflTransGen Edge lease.state lease'.state
  terms : lease'.terms = lease.terms

theorem LaterRecord.refl (lease : CapabilityLease) : LaterRecord lease lease :=
  ⟨Relation.ReflTransGen.refl, rfl⟩

theorem LaterRecord.trans
    {a b c : CapabilityLease} (hab : LaterRecord a b) (hbc : LaterRecord b c) :
    LaterRecord a c :=
  ⟨hab.edges.trans hbc.edges, hbc.terms.trans hab.terms⟩

theorem leaseStep_laterRecord
    (hs : s.Fresh env.host) (op : LeaseOp) {leaseId : String}
    {lease : CapabilityLease} (hget : s.leases.get leaseId = some lease) :
    ∃ lease', (leaseStep env s op).1.leases.get leaseId = some lease' ∧
      LaterRecord lease lease' := by
  obtain ⟨lease', hget', ⟨-, hspends⟩ | ⟨-, hmoves⟩⟩ :=
    leaseStep_lease hs op hget
  · exact ⟨lease', hget', hspends.edges, hspends.terms_eq⟩
  · obtain ⟨hterms, -, hedges⟩ := moves_run hmoves
    exact ⟨lease', hget', hedges, hterms⟩

theorem run_laterRecord
    (hs : s.Fresh env.host) {leaseId : String} {lease : CapabilityLease}
    (hget : s.leases.get leaseId = some lease) (ops : List LeaseOp) :
    ∃ lease', ((leaseMachine env).final s ops).leases.get leaseId =
        some lease' ∧ LaterRecord lease lease' := by
  let Inv : List LeaseStep → LeaseWorld → Prop := fun _ s =>
    s.Fresh env.host ∧ ∃ lease', s.leases.get leaseId = some lease' ∧
      LaterRecord lease lease'
  have hinit : Inv [] s := ⟨hs, lease, hget, .refl lease⟩
  have hstep : ∀ tr s op, Inv tr s →
      Inv (tr ++ [(leaseMachine env).stepAt s op])
        ((leaseMachine env).step s op).1 := by
    rintro tr s op ⟨hs, mid, hmid, hlater⟩
    obtain ⟨lease', hget', hnext⟩ := leaseStep_laterRecord hs op hmid
    exact ⟨leaseStep_fresh hs op, lease', hget', hlater.trans hnext⟩
  exact (Machine.invariant Inv hinit hstep ops).2

/-! ## The policies -/

theorem leaseStep_policies (hs : s.Fresh env.host) (op : LeaseOp) :
    FilesOwnPolicy env op s (leaseStep env s op).1 := by
  by_cases hop : ∃ request, op = .authorize request
  · obtain ⟨request, rfl⟩ := hop
    left
    rcases leaseStep_authorized hs request with
      ⟨answer, -, hauthorized⟩ | ⟨e, -, hraised⟩
    · exact hauthorized.policies
    · exact hraised.untouched.policies
  · exact (leaseStep_quiet hs fun request heq => hop ⟨request, heq⟩).policies

/-- The hash does not confuse two of the policies that these calls mint: equal
hashes come from equal canonical payloads. -/
def PoliciesDistinguished (host : Host) (ops : List LeaseOp) : Prop :=
  ∀ op ∈ ops, ∀ op' ∈ ops, ∀ policy policy',
    op.policy? = some policy → op'.policy? = some policy' →
    policy.canonicalPolicyHash host = policy'.canonicalPolicyHash host →
    policy.toPayload.canonical = policy'.toPayload.canonical

theorem useLimit_eq_of_canonical
    {policy policy' : CanonicalPolicy}
    (h : policy.toPayload.canonical = policy'.toPayload.canonical) :
    policy'.useLimit = policy.useLimit := by
  have hmem (value : PyVal) := PyVal.mem_canonicalItems_iff h
    ("use_limit", value)
  simp only [PyVal.canonicalItems, List.mem_cons, Prod.mk.injEq,
    String.reduceEq, false_and, true_and, false_or, or_false,
    List.not_mem_nil] at hmem
  have heq := (hmem _).mp rfl
  cases hlimit : policy.useLimit <;> cases hlimit' : policy'.useLimit <;>
    simp_all [PyVal.canonical]

/-- A policy on file was there before, or some call minted it and it is filed
under its own hash. -/
theorem policies_source
    (hs : s.Fresh env.host) (ops : List LeaseOp) {hash : String}
    {policy : CanonicalPolicy}
    (hget : ((leaseMachine env).final s ops).policies.get? hash =
      some policy) :
    s.policies.get? hash = some policy ∨
      ∃ op ∈ ops, op.policy? = some policy ∧
        policy.canonicalPolicyHash env.host = hash := by
  let Inv : List LeaseStep → LeaseWorld → Prop := fun tr t =>
    t.Fresh env.host ∧ ∀ policy, t.policies.get? hash = some policy →
      s.policies.get? hash = some policy ∨
        ∃ e ∈ tr, e.input.policy? = some policy ∧
          policy.canonicalPolicyHash env.host = hash
  have hinit : Inv [] s := ⟨hs, fun _ h => Or.inl h⟩
  have hstep : ∀ tr t op, Inv tr t →
      Inv (tr ++ [(leaseMachine env).stepAt t op])
        ((leaseMachine env).step t op).1 := by
    rintro tr t op ⟨ht, hfrom⟩
    refine ⟨leaseStep_fresh ht op, fun policy hpolicy => ?_⟩
    have hold (h : t.policies.get? hash = some policy) :
        s.policies.get? hash = some policy ∨
          ∃ e ∈ tr ++ [(leaseMachine env).stepAt t op],
            e.input.policy? = some policy ∧
              policy.canonicalPolicyHash env.host = hash := by
      refine (hfrom policy h).imp_right ?_
      rintro ⟨e, he, hminted⟩
      exact ⟨e, List.mem_append_left _ he, hminted⟩
    rcases leaseStep_policies ht op with hsame | ⟨new, hnew, hset⟩
    · exact hold ((congrArg (·.get? hash) hsame).symm.trans hpolicy)
    · have hget' := ((congrArg (·.get? hash) hset).trans
        (Dict.get?_set t.policies _ hash new)).symm.trans hpolicy
      split at hget'
      next hhash =>
        obtain rfl := Option.some.inj hget'
        exact Or.inr ⟨(leaseMachine env).stepAt t op,
          List.mem_append_right _ (List.mem_singleton_self _), hnew, hhash.symm⟩
      · exact hold hget'
  refine ((Machine.invariant Inv hinit hstep ops).2 policy hget).imp_right ?_
  rintro ⟨e, he, hminted⟩
  exact ⟨e.input, Machine.input_mem_of_mem_trace he, hminted⟩

theorem policies_kept
    (hs : s.Fresh env.host) (ops : List LeaseOp) {hash : String}
    (hget : s.policies.contains hash = true) :
    ((leaseMachine env).final s ops).policies.contains hash = true := by
  let Inv : List LeaseStep → LeaseWorld → Prop := fun _ t =>
    t.Fresh env.host ∧ t.policies.contains hash = true
  have hinit : Inv [] s := ⟨hs, hget⟩
  have hstep : ∀ tr t op, Inv tr t →
      Inv (tr ++ [(leaseMachine env).stepAt t op])
        ((leaseMachine env).step t op).1 := by
    rintro tr t op ⟨ht, hkept⟩
    refine ⟨leaseStep_fresh ht op, ?_⟩
    rcases leaseStep_policies ht op with hsame | ⟨new, -, hset⟩
    · exact (congrArg (·.contains hash) hsame).trans hkept
    · refine (congrArg (·.contains hash) hset).trans ?_
      rw [Dict.contains_set, hkept, Bool.or_true]
  exact (Machine.invariant Inv hinit hstep ops).2

end Hydrogenuine.Lease
