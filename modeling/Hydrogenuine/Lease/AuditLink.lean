import Hydrogenuine.Lease.Lifetime

/-!
# Finding the lease behind a receipt

A receipt holds the hash of the lease that it is about, and `_lease_by_hash` of
`hg_lease/operator.py` looks for a lease on record with this hash.  The hash covers the
state and the uses that are left, so that it is the hash of the record as it was when the
request was allowed.  The lease is found again exactly as long as it is active and has no
limit of uses, provided that the hash tells the records apart.
-/

namespace Hydrogenuine.Lease

open Support Hydrogenuine.Core Gpp

def LeaseWorld.leaseByHash (host : Host) (s : LeaseWorld) :
    Option String → Option CapabilityLease
  | none => none
  | some leaseHash => s.leases.all.find? fun lease => lease.leaseHash host == leaseHash

/-- `receipt["lease_hash"]`. -/
def receiptLeaseHash (receipt : Receipt) : Option String :=
  match receipt.get? "lease_hash" with
  | some (.str leaseHash) => some leaseHash
  | _ => none

variable {env : LeaseEnv} {s t : LeaseWorld}

/-! ## The receipt of an allowance -/

theorem receiptLeaseHash_newReceipt
    (host : Host) (receipts : List Receipt) (fields : ReceiptFields)
    (receiptId : String) :
    receiptLeaseHash (newReceipt host receipts fields receiptId) =
      fields.leaseHash := by
  have hget : (newReceipt host receipts fields receiptId).get? "lease_hash" =
      some (PyVal.ofOption fields.leaseHash) := by
    unfold newReceipt
    dsimp only
    rw [Dict.get?_set_of_ne _ _ (by decide)]
    rfl
  unfold receiptLeaseHash
  rw [hget]
  cases fields.leaseHash with
  | none => rfl
  | some leaseHash => rfl

/-- The receipt of an allowance holds the hash of the record that the request was
allowed under. -/
structure Receipted
    (host : Host) (s t : LeaseWorld) (leaseId : Option String) (receipt : Receipt)
    (was : CapabilityLease) : Prop where
  appended : t.receipts = s.receipts ++ [receipt]
  hash : receiptLeaseHash receipt = some (was.leaseHash host)
  lease : leaseId = some was.leaseId
  filed : s.leases.get was.leaseId = some was
  active : was.state = .active

theorem ends_fileReceipt_eq
    {fields : ReceiptFields} {Q : Receipt → LeaseWorld → Prop}
    {E : PyError → LeaseWorld → Prop}
    (h : Q (newReceipt env.host s.receipts fields
        ("rcpt_" ++ env.host.uuidHex s.uuids))
      { s with
        uuids := s.uuids + 1
        receipts := s.receipts ++ [newReceipt env.host s.receipts fields
          ("rcpt_" ++ env.host.uuidHex s.uuids)] }) :
    Ends (fileReceipt env fields) s Q E := by
  apply ends_bind
  apply ends_drawUuid
  apply ends_bind
  apply ends_get
  apply ends_bind
  apply ends_modify
  exact ends_pure h

theorem authorize_receipted (hs : s.Fresh env.host) (request : ActionRequest) :
    Ends (authorize env request) s
      (fun answer t => answer.decision.outcome = .allow →
        ∃ receipt was,
          Receipted env.host s t answer.decision.leaseId receipt was)
      (fun _ _ => True) := by
  unfold authorize
  apply ends_bind
  refine ends_mono (decideRequest_ends s request) ?_ fun _ _ _ => trivial
  rintro ⟨lease, decided, vetoes⟩ u ⟨huntouched, -, -, hlease, hallowed⟩
  dsimp only at hlease hallowed
  apply ends_bind
  refine ends_mono (bindPermit_ends (huntouched.fresh hs) request lease decided ?_) ?_
    fun _ _ _ => trivial
  · intro hallow
    obtain ⟨l, hl, hby⟩ := hallowed hallow
    refine ⟨l, hl, ?_, hby.active, hby.uses⟩
    rw [huntouched.leases]
    exact hby.filed
  · rintro ⟨decision, permitId⟩ v ⟨-, -, hreceipts, -, -, -, hleaseId, heffect⟩
    dsimp only at hleaseId heffect
    apply ends_bind
    apply ends_fileReceipt_eq
    apply ends_pure
    intro hallow
    rcases heffect with ⟨hdenied, -⟩ | ⟨l, -, -, hdecided, -, hl, -⟩
    · exact absurd hallow hdenied
    obtain ⟨was, hwas, hby⟩ := hallowed hdecided
    obtain rfl := Option.some.inj (hwas.symm.trans hl)
    subst hwas
    refine ⟨_, was, congrArg (· ++ [_]) (hreceipts.trans huntouched.receipts), ?_,
      hleaseId.trans hlease, hby.filed, hby.active⟩
    exact receiptLeaseHash_newReceipt env.host _ _ _

theorem leaseStep_receipted
    (hs : s.Fresh env.host) {op : LeaseOp} {leaseId : String}
    (hallows : allowsUnder leaseId ((leaseMachine env).stepAt s op) = true) :
    ∃ receipt was, Receipted env.host s (leaseStep env s op).1 (some leaseId)
      receipt was := by
  obtain ⟨answer, houtput, hallow, hlease⟩ := allowsUnder_eq_true_iff.mp hallows
  obtain ⟨request, rfl⟩ := input_of_output_authorized houtput
  rcases (authorize_receipted hs request).cases with
    ⟨answer', houtcome, hreceipted⟩ | ⟨e, houtcome, -⟩
  · have hsame : answer' = answer := by
      have heq := (congrArg LeaseReply.authorized houtcome).symm.trans houtput
      cases heq
      rfl
    subst hsame
    rw [← hlease]
    exact hreceipted hallow
  · have heq := (congrArg LeaseReply.authorized houtcome).symm.trans houtput
    cases heq

/-! ## What the record becomes -/

/-- A count of uses since a use was spent: a limited one is lower. -/
def SpentSince (was now : Option ℤ) : Prop :=
  match was with
  | none => now = none
  | some n => ∃ m, now = some m ∧ m < n

theorem Spends.spentSince
    {lease lease' : CapabilityLease} (h : Spends lease lease') :
    SpentSince lease.remainingUses lease'.remainingUses := by
  cases huses : lease.remainingUses with
  | none =>
      obtain ⟨-, ⟨-, rfl⟩ | ⟨n, hn, -⟩ | ⟨hone, -⟩⟩ := h
      · exact huses
      · rw [huses] at hn
        cases hn
      · rw [huses] at hone
        cases hone
  | some n => exact ⟨n - 1, (h.remainingUses_of_some huses).2.1, by omega⟩

theorem SpentSince.later
    {was now later : Option ℤ} (h : SpentSince was now)
    (hlater : later = now ∨ SpentSince now later) : SpentSince was later := by
  rcases hlater with rfl | hlater
  · exact h
  cases was with
  | none =>
      obtain rfl := h
      exact hlater
  | some n =>
      obtain ⟨m, rfl, hm⟩ := h
      obtain ⟨k, rfl, hk⟩ := hlater
      exact ⟨k, rfl, hk.trans hm⟩

/-- The record under which a request was allowed, and what has become of it. -/
structure Since (t : LeaseWorld) (was now : CapabilityLease) : Prop where
  filed : t.leases.get was.leaseId = some now
  terms : now.terms = was.terms
  uses : SpentSince was.remainingUses now.remainingUses

/-- Every allowance of the run has its receipt, and its lease has lost a use since. -/
def Allowances (host : Host) (tr : List LeaseStep) (t : LeaseWorld) : Prop :=
  ∀ e ∈ tr, ∀ leaseId, allowsUnder leaseId e = true →
    ∃ receipt was now, Receipted host e.before e.after (some leaseId) receipt was ∧
      Since t was now

theorem since_step
    (ht : t.Fresh env.host) (op : LeaseOp) {was now : CapabilityLease}
    (h : Since t was now) : ∃ now', Since (leaseStep env t op).1 was now' := by
  obtain ⟨now', hget, ⟨-, hspends⟩ | ⟨-, hmoves⟩⟩ := leaseStep_lease ht op h.filed
  · exact ⟨now', hget, hspends.terms_eq.trans h.terms,
      h.uses.later (Or.inr hspends.spentSince)⟩
  · obtain ⟨hterms, huses, -⟩ := moves_run hmoves
    exact ⟨now', hget, hterms.trans h.terms, h.uses.later (Or.inl huses)⟩

theorem since_of_allows
    (hs : s.Fresh env.host) {op : LeaseOp} {leaseId : String} {receipt : Receipt}
    {was : CapabilityLease}
    (hallows : allowsUnder leaseId ((leaseMachine env).stepAt s op) = true)
    (h : Receipted env.host s (leaseStep env s op).1 (some leaseId) receipt was) :
    ∃ now, Since (leaseStep env s op).1 was now := by
  obtain rfl := Option.some.inj h.lease
  obtain ⟨now, hget, ⟨-, hspends⟩ | ⟨hnot, -⟩⟩ := leaseStep_lease hs op h.filed
  · exact ⟨now, hget, hspends.terms_eq, hspends.spentSince⟩
  · rw [hallows] at hnot
    cases hnot

theorem run_allowances
    (env : LeaseEnv) (situation : Dict String SituationFact)
    (gpp : PermitAuthority) (ops : List LeaseOp) :
    Allowances env.host ((leaseMachine env).trace (.init situation gpp) ops)
      ((leaseMachine env).final (.init situation gpp) ops) := by
  have hinit : LeaseWorld.Fresh env.host (.init situation gpp) ∧
      Allowances env.host [] (.init situation gpp) :=
    ⟨LeaseWorld.fresh_init env.host situation gpp, List.forall_mem_nil _⟩
  refine (Machine.invariant
    (fun tr t => LeaseWorld.Fresh env.host t ∧ Allowances env.host tr t) hinit ?_ ops).2
  rintro tr t op ⟨ht, hallowances⟩
  refine ⟨leaseStep_fresh ht op, fun e he leaseId hallows => ?_⟩
  rcases List.mem_append.mp he with hold | hnew
  · obtain ⟨receipt, was, now, hreceipted, hsince⟩ :=
      hallowances e hold leaseId hallows
    obtain ⟨now', hsince'⟩ := since_step ht op hsince
    exact ⟨receipt, was, now', hreceipted, hsince'⟩
  · obtain rfl := List.mem_singleton.mp hnew
    obtain ⟨receipt, was, hreceipted⟩ := leaseStep_receipted ht hallows
    obtain ⟨now, hsince⟩ := since_of_allows ht hallows hreceipted
    exact ⟨receipt, was, now, hreceipted, hsince⟩

/-! ## Records and their hashes -/

/-- The lease is on record in some state of the run. -/
def OnRecord
    (env : LeaseEnv) (s : LeaseWorld) (ops : List LeaseOp) (lease : CapabilityLease) :
    Prop :=
  ∃ js, js <+: ops ∧
    ((leaseMachine env).final s js).leases.get lease.leaseId = some lease

/-- The hash does not confuse two records of the run: equal hashes come from equal
canonical payloads. -/
def RecordsDistinguished (env : LeaseEnv) (s : LeaseWorld) (ops : List LeaseOp) : Prop :=
  ∀ a b, OnRecord env s ops a → OnRecord env s ops b →
    a.leaseHash env.host = b.leaseHash env.host →
      a.toPayload.canonical = b.toPayload.canonical

theorem toPayload_eq
    {a b : CapabilityLease} (hterms : a.terms = b.terms) (hstate : a.state = b.state)
    (huses : a.remainingUses = b.remainingUses) : a.toPayload = b.toPayload := by
  have hself : ∀ lease : CapabilityLease, lease.toPayload =
      { lease.terms with
        state := lease.state
        remainingUses := lease.remainingUses }.toPayload := fun _ => rfl
  rw [hself a, hself b, hterms, hstate, huses]

theorem LeaseState.text_injective : Function.Injective LeaseState.text := by
  intro a b h
  cases a <;> cases b <;> first | rfl | exact absurd h (by decide)

theorem fields_eq_of_canonical
    {a b : CapabilityLease} (h : a.toPayload.canonical = b.toPayload.canonical) :
    a.leaseId = b.leaseId ∧ a.state = b.state ∧
      a.remainingUses = b.remainingUses := by
  have hid := fun value => PyVal.mem_canonicalItems_iff h ("lease_id", value)
  have hstate := fun value => PyVal.mem_canonicalItems_iff h ("state", value)
  have huses := fun value => PyVal.mem_canonicalItems_iff h ("remaining_uses", value)
  simp only [PyVal.canonicalItems, List.mem_cons, Prod.mk.injEq, String.reduceEq,
    false_and, true_and, false_or, or_false, List.not_mem_nil] at hid hstate huses
  refine ⟨?_, LeaseState.text_injective ?_, ?_⟩
  · exact PyVal.str.inj ((hid _).mp rfl)
  · exact PyVal.str.inj ((hstate _).mp rfl)
  · have heq := (huses _).mp rfl
    cases ha : a.remainingUses with
    | none =>
        cases hb : b.remainingUses with
        | none => rfl
        | some n =>
            rw [ha, hb] at heq
            cases heq
    | some m =>
        cases hb : b.remainingUses with
        | none =>
            rw [ha, hb] at heq
            cases heq
        | some n =>
            rw [ha, hb] at heq
            cases heq
            rfl

/-! ## The lookup -/

/-- The lookup for the receipt of a step finds the lease that the step allowed a
request under. -/
def Resolves
    (host : Host) (t : LeaseWorld) (e : LeaseStep) (leaseId : String) : Prop :=
  ∃ receipt lease, e.after.receipts = e.before.receipts ++ [receipt] ∧
    t.leaseByHash host (receiptLeaseHash receipt) = some lease ∧
    lease.leaseId = leaseId

/-- The lease is active and has no limit of uses. -/
def StandsUnlimited (t : LeaseWorld) (leaseId : String) : Prop :=
  ∃ lease, t.leases.get leaseId = some lease ∧ lease.state = .active ∧
    lease.remainingUses = none

theorem mem_all_of_leaseByHash
    {host : Host} {leaseHash : Option String} {lease : CapabilityLease}
    (h : t.leaseByHash host leaseHash = some lease) :
    t.leases.get lease.leaseId = some lease ∧
      leaseHash = some (lease.leaseHash host) := by
  unfold LeaseWorld.leaseByHash at h
  cases leaseHash with
  | none => cases h
  | some leaseHash =>
      dsimp only at h
      have hhash := List.find?_some h
      rw [beq_iff_eq] at hhash
      exact ⟨LeaseStore.mem_all_iff.mp (List.mem_of_find?_eq_some h),
        congrArg some hhash.symm⟩

theorem resolves_iff
    {e : LeaseStep} {leaseId : String} {receipt : Receipt}
    {was now : CapabilityLease}
    (hreceipted : Receipted env.host e.before e.after (some leaseId) receipt was)
    (hsince : Since t was now)
    (hwas : ∀ lease, t.leases.get lease.leaseId = some lease →
      lease.leaseHash env.host = was.leaseHash env.host →
        lease.toPayload.canonical = was.toPayload.canonical) :
    Resolves env.host t e leaseId ↔ StandsUnlimited t leaseId := by
  obtain rfl := Option.some.inj hreceipted.lease
  constructor
  · rintro ⟨receipt', found, happended, hlookup, hid⟩
    have hsame : [receipt] = [receipt'] :=
      List.append_cancel_left (hreceipted.appended.symm.trans happended)
    obtain rfl := (List.cons.inj hsame).1
    obtain ⟨hfiled, hhash⟩ := mem_all_of_leaseByHash hlookup
    rw [hreceipted.hash, Option.some.injEq] at hhash
    obtain ⟨-, hstate, huses⟩ := fields_eq_of_canonical (hwas found hfiled hhash.symm)
    rw [hid] at hfiled
    obtain rfl := Option.some.inj (hfiled.symm.trans hsince.filed)
    refine ⟨found, hfiled, hstate.trans hreceipted.active, ?_⟩
    have hspent := hsince.uses
    rw [← huses] at hspent
    cases hcount : found.remainingUses with
    | none => rfl
    | some n =>
        rw [hcount] at hspent
        obtain ⟨m, hm, hlt⟩ := hspent
        obtain rfl := Option.some.inj hm
        exact absurd hlt (lt_irrefl _)
  · rintro ⟨lease, hfiled, hactive, hunlimited⟩
    obtain rfl := Option.some.inj (hfiled.symm.trans hsince.filed)
    have huses : was.remainingUses = none := by
      have hspent := hsince.uses
      rw [hunlimited] at hspent
      cases hcount : was.remainingUses with
      | none => rfl
      | some n =>
          rw [hcount] at hspent
          obtain ⟨m, hm, -⟩ := hspent
          cases hm
    have hpayload : lease.toPayload = was.toPayload :=
      toPayload_eq hsince.terms (hactive.trans hreceipted.active.symm)
        (hunlimited.trans huses.symm)
    have hid : lease.leaseId = was.leaseId := LeaseStore.leaseId_of_get hfiled
    have hmem : lease ∈ t.leases.all := LeaseStore.mem_all_iff.mpr (hid ▸ hfiled)
    have hhash : lease.leaseHash env.host = was.leaseHash env.host :=
      congrArg env.host.canonicalHash hpayload
    have hsome : (t.leaseByHash env.host (some (was.leaseHash env.host))).isSome := by
      unfold LeaseWorld.leaseByHash
      exact List.find?_isSome.mpr ⟨lease, hmem, beq_iff_eq.mpr hhash⟩
    obtain ⟨found, hfound⟩ := Option.isSome_iff_exists.mp hsome
    obtain ⟨hfoundFiled, hfoundHash⟩ := mem_all_of_leaseByHash hfound
    refine ⟨receipt, found, hreceipted.appended, ?_, ?_⟩
    · rw [hreceipted.hash]
      exact hfound
    · exact (fields_eq_of_canonical
        (hwas found hfoundFiled (Option.some.inj hfoundHash).symm)).1

/-- In every state that a run reaches, the receipts of all allowances resolve to the
leases that allowed them if and only if all these leases are active and have no limit of
uses, provided that the hash tells the records of the run apart. -/
theorem allow_receipts_resolve_iff
    (env : LeaseEnv) (situation : Dict String SituationFact)
    (gpp : PermitAuthority) (ops : List LeaseOp)
    (hdistinguished : RecordsDistinguished env (.init situation gpp) ops) :
    (∀ e ∈ (leaseMachine env).trace (.init situation gpp) ops, ∀ leaseId,
        allowsUnder leaseId e = true →
          Resolves env.host ((leaseMachine env).final (.init situation gpp) ops) e
            leaseId) ↔
      ∀ e ∈ (leaseMachine env).trace (.init situation gpp) ops, ∀ leaseId,
        allowsUnder leaseId e = true →
          StandsUnlimited ((leaseMachine env).final (.init situation gpp) ops)
            leaseId := by
  refine forall₂_congr fun e he => forall₂_congr fun leaseId hallows => ?_
  obtain ⟨receipt, was, now, hreceipted, hsince⟩ :=
    run_allowances env situation gpp ops e he leaseId hallows
  apply resolves_iff hreceipted hsince
  intro lease hfiled hhash
  obtain ⟨js, hjs, hbefore⟩ := Machine.exists_prefix_of_mem_trace he
  have hwas : OnRecord env (.init situation gpp) ops was := by
    refine ⟨js, hjs, ?_⟩
    rw [← hbefore]
    exact hreceipted.filed
  exact hdistinguished lease was ⟨ops, List.prefix_rfl, hfiled⟩ hwas hhash

/-! ## A lease with a limit and one without -/

def unlimitedPolicy : CanonicalPolicy := { referencePolicy 1 with useLimit := none }

def allowedOnce (policy : CanonicalPolicy) : List LeaseOp :=
  [.mint policy (confirmationOf referenceHost policy) none,
    .authorize (referenceAction "req-1" "agent:lamp")]

theorem unlimited_resolves :
    ∃ e ∈ (leaseMachine referenceEnv).trace referenceWorld (allowedOnce unlimitedPolicy),
      allowsUnder "lease_0" e = true ∧
        Resolves referenceHost ((leaseMachine referenceEnv).final referenceWorld
          (allowedOnce unlimitedPolicy)) e "lease_0" := by
  -- The record stays as it was minted.
  have hrecords : ∀ js ∈ (allowedOnce unlimitedPolicy).inits,
      ∀ a ∈ ((leaseMachine referenceEnv).final referenceWorld js).leases.all,
        some a = ((leaseMachine referenceEnv).final referenceWorld
          (allowedOnce unlimitedPolicy)).leases.get "lease_0" := by
    decide +kernel
  have hone : RecordsDistinguished referenceEnv referenceWorld
      (allowedOnce unlimitedPolicy) := by
    rintro a b ⟨js, hjs, ha⟩ ⟨js', hjs', hb⟩ -
    have hsame := (hrecords js ((List.mem_inits _ _).mpr hjs) a
      (LeaseStore.mem_all_iff.mpr ha)).trans (hrecords js' ((List.mem_inits _ _).mpr hjs')
        b (LeaseStore.mem_all_iff.mpr hb)).symm
    rw [Option.some.inj hsame]
  have hstands : ∀ lease ∈ ((leaseMachine referenceEnv).final referenceWorld
      (allowedOnce unlimitedPolicy)).leases.all,
        lease.state = .active ∧ lease.remainingUses = none := by
    decide +kernel
  have hallows : ((leaseMachine referenceEnv).trace referenceWorld
      (allowedOnce unlimitedPolicy)).any (allowsUnder "lease_0") = true := by
    decide +kernel
  obtain ⟨e, he, hallowed⟩ := List.any_eq_true.mp hallows
  refine ⟨e, he, hallowed, ?_⟩
  refine (allow_receipts_resolve_iff referenceEnv Dict.empty (.init .empty)
    (allowedOnce unlimitedPolicy) hone).mpr ?_ e he "lease_0" hallowed
  intro e he leaseId hallowed
  obtain ⟨_, was, now, hreceipted, hsince⟩ := run_allowances referenceEnv Dict.empty
    (.init .empty) (allowedOnce unlimitedPolicy) e he leaseId hallowed
  have hid : leaseId = was.leaseId := Option.some.inj hreceipted.lease
  have hnow : now.leaseId = was.leaseId := LeaseStore.leaseId_of_get hsince.filed
  have hmem := LeaseStore.mem_all_iff.mpr (hnow.symm ▸ hsince.filed)
  exact ⟨now, hid ▸ hsince.filed, hstands now hmem⟩

/-- The receipt of the only use of a lease leads nowhere: the lease is exhausted. -/
theorem spent_not_resolved :
    ¬ ∀ (env : LeaseEnv) (situation : Dict String SituationFact)
        (gpp : PermitAuthority) (ops : List LeaseOp),
      ∀ e ∈ (leaseMachine env).trace (.init situation gpp) ops, ∀ leaseId,
        allowsUnder leaseId e = true →
          Resolves env.host ((leaseMachine env).final (.init situation gpp) ops) e
            leaseId := by
  intro hall
  have hlost : ((leaseMachine referenceEnv).trace referenceWorld
      (allowedOnce (referencePolicy 1))).any (fun e => allowsUnder "lease_0" e &&
        e.after.receipts.all fun receipt =>
          (((leaseMachine referenceEnv).final referenceWorld
            (allowedOnce (referencePolicy 1))).leaseByHash referenceHost
              (receiptLeaseHash receipt)).isNone) = true := by
    decide +kernel
  obtain ⟨e, he, hboth⟩ := List.any_eq_true.mp hlost
  rw [Bool.and_eq_true, List.all_eq_true] at hboth
  obtain ⟨receipt, lease, happended, hlookup, -⟩ := hall referenceEnv Dict.empty
    (.init .empty) (allowedOnce (referencePolicy 1)) e he "lease_0" hboth.1
  have hnone := hboth.2 receipt (by
    rw [happended]
    exact List.mem_append_right _ (List.mem_singleton_self _))
  rw [Option.isNone_iff_eq_none] at hnone
  cases hnone.symm.trans hlookup

end Hydrogenuine.Lease
